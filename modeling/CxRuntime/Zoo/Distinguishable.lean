import CxRuntime.Zoo.StatefulDefined
import CxRuntime.Zoo.StatelessDefined

/-!
# Results and signals

A call is distinguishable from a signal if it returns a word and the word is no
reserved value.  The table of CXUs fails this on the operands that C leaves
undefined and on the collisions of each CXU, put together over the whole table.
-/

namespace CxRuntime

/-- The entries of `addsub` that return a reserved value on purpose. -/
def Signals (sysSel : CxSelidx) (cfCall : CfCall) : Prop :=
  sysSel.cxId.toNat = 1 ∧ Addsub.Signals cfCall.cfId

/-- A function of the table, with a context of its CXU if that has contexts. -/
structure CustomCall (sysSel : CxSelidx) (cfCall : CfCall) : Prop where
  entry : Filled (cxFuncs sysSel.cxId.toNat cfCall.cfId)
  context :
    match sysSel.cxId.toNat with
    | 2 => Filled (Mulacc.contextOf sysSel)
    | 4 | 5 => Filled (Vector.contextOf sysSel)
    | 7 => Filled (NnAcc.contextOf sysSel)
    | _ => True

/-- The call returns a word, and the word is no reserved value. -/
def Ordinary {σ : Type} (answer : Option (Returned × σ)) : Prop :=
  ∃ word next, answer = some (some word, next) ∧ ¬IsSentinel word

/-- The operands for which C leaves open what the call returns. -/
def Undefined (sysSel : CxSelidx) (cfCall : CfCall) : Prop :=
  match sysSel.cxId.toNat with
  | 0 => cfCall.cfId = 1 ∧ Muldiv.DivUndefined cfCall.a cfCall.b
  | 2 | 7 => cfCall.cfId = 1020 ∧ cfCall.a = 0
  | 3 => cfCall.cfId = 1 ∧ ¬(cfCall.b &&& 0xFF).toNat < 32
  | 4 | 5 => ∃ context, Vector.contextOf sysSel = some context ∧
      Vector.Overruns context cfCall.cfId cfCall.a cfCall.b
  | _ => False

/-- The operands and the state on which the result of a call is reserved. -/
def Collides (sysSel : CxSelidx) (cfCall : CfCall) (zoo : ZooStatics) : Prop :=
  match sysSel.cxId.toNat with
  | 0 => Muldiv.Collides cfCall.cfId cfCall.a cfCall.b
  | 1 => Addsub.Collides cfCall.cfId cfCall.a cfCall.b
  | 2 => ∃ context, Mulacc.contextOf sysSel = some context ∧
      Mulacc.Collides cfCall.cfId cfCall.a cfCall.b (zoo.mulacc.data context)
  | 3 => Pext.Collides cfCall.cfId cfCall.a cfCall.b
  | 4 | 5 => ∃ context, Vector.contextOf sysSel = some context ∧
      Vector.Collides cfCall.cfId cfCall.a cfCall.b context zoo.vector.data
  | 6 => Max.Collides cfCall.cfId cfCall.a cfCall.b
  | 7 => ∃ context, NnAcc.contextOf sysSel = some context ∧
      NnAcc.Collides cfCall.cfId cfCall.a cfCall.b (zoo.nnAcc.data context)
  | _ => False

private theorem ordinary_iff {σ : Type} {answer : Option (Returned × σ)} :
    Ordinary answer ↔ ReturnsWord answer ∧ Unreserved answer := by
  constructor
  · rintro ⟨word, next, rfl, notSentinel⟩
    exact ⟨.some word next, (Unreserved.some_iff word next).mpr notSentinel⟩
  · rintro ⟨⟨word, next, answered⟩, unreserved⟩
    exact ⟨word, next, answered, unreserved word next answered⟩

/-! ## The entries of the table -/

section Entries

variable {a b : Word} {sysSel : CxSelidx} {zoo : ZooStatics}

private theorem unreserved_onZoo_iff (slot : Option StatelessFunc) :
    Unreserved ((slot.map StatelessFunc.onZoo).bind fun func =>
      func a b sysSel zoo) ↔ UnreservedEntry slot a b := by
  cases slot with
  | none => exact iff_of_true Unreserved.none (UnreservedEntry.none a b)
  | some func =>
      rw [UnreservedEntry.some_iff]
      constructor
      · intro unreservedCall result returned
        apply unreservedCall result zoo
        simp only [Option.map_some, Option.bind_some, StatelessFunc.onZoo,
          returned]
      · intro unreservedFunc word next answered
        obtain ⟨result, returned, equality⟩ :=
          Option.map_eq_some_iff.mp answered
        cases equality
        exact unreservedFunc word returned

private theorem returnsWord_onZoo_iff {slot : Option StatelessFunc}
    {undefined : Prop} (filled : Filled (slot.map StatelessFunc.onZoo))
    (returns : ∀ func, slot = some func → (Returns func a b ↔ ¬undefined)) :
    ReturnsWord ((slot.map StatelessFunc.onZoo).bind fun func =>
      func a b sysSel zoo) ↔ ¬undefined := by
  obtain ⟨_, entry⟩ := filled
  obtain ⟨func, isFunc, _⟩ := Option.map_eq_some_iff.mp entry
  rw [← returns func isFunc, isFunc]
  constructor
  · rintro ⟨_, _, answered⟩
    obtain ⟨result, returned, _⟩ := Option.map_eq_some_iff.mp answered
    exact ⟨result, returned⟩
  · rintro ⟨result, returned⟩
    refine ⟨result, zoo, ?_⟩
    simp only [Option.map_some, Option.bind_some, StatelessFunc.onZoo, returned]

section Wrapped

/-! The table entry of a stateful CXU answers as its function does. -/

variable {σ : Type} {wrap : CxFunc σ → CxFunc ZooStatics} (statics : σ)
  (put : σ → ZooStatics)
  (wraps : ∀ func, wrap func a b sysSel zoo =
    (func a b sysSel statics).map fun answer => (answer.1, put answer.2))
include wraps

private theorem bind_wrapped (slot : Option (CxFunc σ)) :
    ((slot.map wrap).bind fun func => func a b sysSel zoo) =
      (slot.bind fun func => func a b sysSel statics).map fun answer =>
        (answer.1, put answer.2) := by
  cases slot with
  | none => rfl
  | some func => exact wraps func

private theorem returnsWord_wrapped_iff (slot : Option (CxFunc σ)) :
    ReturnsWord ((slot.map wrap).bind fun func => func a b sysSel zoo) ↔
      ReturnsWord (slot.bind fun func => func a b sysSel statics) := by
  rw [bind_wrapped statics put wraps]
  exact ReturnsWord.map_iff _ put

private theorem unreserved_wrapped_iff (slot : Option (CxFunc σ)) :
    Unreserved ((slot.map wrap).bind fun func => func a b sysSel zoo) ↔
      Unreserved (slot.bind fun func => func a b sysSel statics) := by
  rw [bind_wrapped statics put wraps]
  exact Unreserved.map_iff _ put

end Wrapped

private theorem below_of_filled {φ : Type} {wrap : φ → CxFunc ZooStatics}
    {table : Nat → Option φ} {cfId : Nat}
    (bounded : ∀ {cfId}, ¬cfId < maxCfIds → table cfId = none)
    (filled : Filled ((table cfId).map wrap)) : cfId < maxCfIds := by
  by_contra above
  obtain ⟨func, entry⟩ := filled
  rw [bounded above] at entry
  cases entry

end Entries

private theorem mulacc_bounded {cfId : Nat} (above : ¬cfId < maxCfIds) :
    Mulacc.cxFuncMulacc cfId = none := by
  have large : 1024 ≤ cfId := Nat.not_lt.mp above
  unfold Mulacc.cxFuncMulacc
  repeat rw [if_neg (by omega)]

private theorem nnAcc_bounded {cfId : Nat} (above : ¬cfId < maxCfIds) :
    NnAcc.cxFuncNnAcc cfId = none := by
  have large : 1024 ≤ cfId := Nat.not_lt.mp above
  unfold NnAcc.cxFuncNnAcc
  repeat rw [if_neg (by omega)]

private theorem vector_bounded {cfId : Nat} (above : ¬cfId < maxCfIds) :
    Vector.cxFuncVector cfId = none := by
  have large : 1024 ≤ cfId := Nat.not_lt.mp above
  have notUser : ¬cfId < Vector.cxVectorNumFuncs := by
    change ¬cfId < 4
    omega
  unfold Vector.cxFuncVector
  rw [if_neg notUser]
  repeat rw [if_neg (by omega)]

/-! ## The whole table -/

section Table

variable {zoo : ZooStatics} {sysSel : CxSelidx} {cfCall : CfCall}

private theorem callFunc_returnsWord_iff (custom : CustomCall sysSel cfCall) :
    ReturnsWord (callFunc sysSel cfCall zoo) ↔ ¬Undefined sysSel cfCall := by
  obtain ⟨cfId, a, b⟩ := cfCall
  obtain ⟨entry, context⟩ := custom
  have vectorIff (filled : Filled ((Vector.cxFuncVector cfId).map onVector))
      (located : Filled (Vector.contextOf sysSel)) :
      ReturnsWord (((Vector.cxFuncVector cfId).map onVector).bind
          fun func => func a b sysSel zoo) ↔
        ¬∃ context, Vector.contextOf sysSel = some context ∧
          Vector.Overruns context cfId a b := by
    obtain ⟨context, located⟩ := located
    apply (returnsWord_wrapped_iff zoo.vector
      (fun after => { zoo with vector := after }) (fun _ => rfl) _).trans
    rw [Vector.returnsWord_iff located (below_of_filled vector_bounded filled)]
    simp [located]
  unfold callFunc Undefined
  unfold cxFuncs at entry ⊢
  match slot : sysSel.cxId.toNat with
  | 0 =>
      simp only [slot] at entry
      exact returnsWord_onZoo_iff entry fun _ registered =>
        Muldiv.returns_iff registered a b
  | 1 =>
      simp only [slot] at entry
      exact returnsWord_onZoo_iff entry fun _ registered =>
        iff_of_true (Addsub.returns registered a b) not_false
  | 2 =>
      simp only [slot] at entry context
      obtain ⟨context, located⟩ := context
      apply (returnsWord_wrapped_iff zoo.mulacc
        (fun after => { zoo with mulacc := after }) (fun _ => rfl) _).trans
      exact Mulacc.returnsWord_iff located
        (below_of_filled mulacc_bounded entry) a b zoo.mulacc
  | 3 =>
      simp only [slot] at entry
      apply returnsWord_onZoo_iff entry
      intro func registered
      rw [← Pext.checkedFunc_eq] at registered
      exact Pext.returns_iff registered a b
  | 4 =>
      simp only [slot] at entry context
      exact vectorIff entry context
  | 5 =>
      simp only [slot] at entry context
      exact vectorIff entry context
  | 6 =>
      simp only [slot] at entry
      exact returnsWord_onZoo_iff entry fun _ registered =>
        iff_of_true (Max.returns registered a b) not_false
  | 7 =>
      simp only [slot] at entry context
      obtain ⟨context, located⟩ := context
      apply (returnsWord_wrapped_iff zoo.nnAcc
        (fun after => { zoo with nnAcc := after }) (fun _ => rfl) _).trans
      exact NnAcc.returnsWord_iff located
        (below_of_filled nnAcc_bounded entry) a b zoo.nnAcc
  | _ + 8 =>
      simp only [slot] at entry
      obtain ⟨_, ⟨⟩⟩ := entry

private theorem callFunc_unreserved_iff (settled : zoo.Settled)
    (custom : CustomCall sysSel cfCall) (silent : ¬Signals sysSel cfCall) :
    Unreserved (callFunc sysSel cfCall zoo) ↔ ¬Collides sysSel cfCall zoo := by
  obtain ⟨cfId, a, b⟩ := cfCall
  have context := custom.context
  have vectorIff (located : Filled (Vector.contextOf sysSel)) :
      Unreserved (((Vector.cxFuncVector cfId).map onVector).bind
          fun func => func a b sysSel zoo) ↔
        ¬∃ context, Vector.contextOf sysSel = some context ∧
          Vector.Collides cfId a b context zoo.vector.data := by
    obtain ⟨context, located⟩ := located
    apply (unreserved_wrapped_iff zoo.vector
      (fun after => { zoo with vector := after }) (fun _ => rfl) _).trans
    rw [Vector.unreserved_iff located settled.vector]
    simp [located]
  unfold callFunc cxFuncs Collides
  match slot : sysSel.cxId.toNat with
  | 0 => exact (unreserved_onZoo_iff _).trans (Muldiv.unreserved_iff cfId a b)
  | 1 =>
      have quiet : ¬Addsub.Signals cfId := fun signals =>
        silent ⟨slot, signals⟩
      exact (unreserved_onZoo_iff _).trans (Addsub.unreserved_iff quiet a b)
  | 2 =>
      simp only [slot] at context
      obtain ⟨context, located⟩ := context
      apply (unreserved_wrapped_iff zoo.mulacc
        (fun after => { zoo with mulacc := after }) (fun _ => rfl) _).trans
      rw [Mulacc.unreserved_iff located settled.mulacc]
      simp [located]
  | 3 => exact (unreserved_onZoo_iff _).trans (Pext.unreserved_iff cfId a b)
  | 4 =>
      simp only [slot] at context
      exact vectorIff context
  | 5 =>
      simp only [slot] at context
      exact vectorIff context
  | 6 => exact (unreserved_onZoo_iff _).trans (Max.unreserved_iff cfId a b)
  | 7 =>
      simp only [slot] at context
      obtain ⟨context, located⟩ := context
      apply (unreserved_wrapped_iff zoo.nnAcc
        (fun after => { zoo with nnAcc := after }) (fun _ => rfl) _).trans
      rw [NnAcc.unreserved_iff located settled.nnAcc]
      simp [located]
  | _ + 8 => exact iff_of_true Unreserved.none not_false

end Table

/-- A reachable call of a custom function that is no deliberate signal returns an
ordinary word exactly if its result is defined and does not collide. -/
theorem results_distinguishable_iff {zoo : ZooStatics}
    (reachable : ZooReachable zoo) {sysSel : CxSelidx} {cfCall : CfCall}
    (custom : CustomCall sysSel cfCall) (silent : ¬Signals sysSel cfCall) :
    Ordinary (callFunc sysSel cfCall zoo) ↔
      ¬Undefined sysSel cfCall ∧ ¬Collides sysSel cfCall zoo := by
  have settled := settled_of_zooReachable reachable
  rw [ordinary_iff, callFunc_returnsWord_iff custom,
    callFunc_unreserved_iff settled custom silent]

/-- The arrays after `mac(a, b)` on the first context of `mulacc`. -/
def afterMac (a b : Word) : ZooStatics :=
  ((callFunc Mulacc.firstSel ⟨0, a, b⟩ cxInitFuncs).get rfl).2

private theorem afterMac_reachable (a b : Word) : ZooReachable (afterMac a b) :=
  .single ⟨Mulacc.firstSel, ⟨0, a, b⟩, _, rfl⟩

/-- The accumulator 25 is read back as an ordinary word, `INT32_MAX` is not. -/
theorem results_distinguishable_iff_mac :
    Ordinary (callFunc Mulacc.firstSel ⟨1021, 0, 0⟩ (afterMac 5 5)) ∧
      ¬Ordinary
        (callFunc Mulacc.firstSel ⟨1021, 0, 0⟩ (afterMac 0x7FFFFFFF 1)) := by
  have custom : CustomCall Mulacc.firstSel ⟨1021, 0, 0⟩ :=
    ⟨⟨_, rfl⟩, ⟨Mulacc.firstContext, rfl⟩⟩
  have silent : ¬Signals Mulacc.firstSel ⟨1021, 0, 0⟩ := fun signals =>
    absurd signals.1 (by decide)
  constructor
  · rw [results_distinguishable_iff (afterMac_reachable 5 5) custom silent]
    refine ⟨fun undefined => absurd undefined.1 (by decide), ?_⟩
    rintro ⟨context, located, _, near⟩
    cases located
    exact absurd near (by decide)
  · rw [results_distinguishable_iff (afterMac_reachable 0x7FFFFFFF 1) custom
      silent]
    intro holds
    exact holds.2 ⟨Mulacc.firstContext, rfl, rfl, by decide⟩

/-- Adding 0 to `INT32_MAX` is a defined sum and returns `FUNC_SENTINEL_OP_POS`,
and so does reading back the accumulator after `mac(INT32_MAX, 1)`. -/
theorem sum_returns_sentinel :
    (∃ zoo, CustomCall (.ofIdx 0x10000001) ⟨0, 0x7FFFFFFF, 0⟩ ∧
      ¬Signals (.ofIdx 0x10000001) ⟨0, 0x7FFFFFFF, 0⟩ ∧
      callFunc (.ofIdx 0x10000001) ⟨0, 0x7FFFFFFF, 0⟩ cxInitFuncs =
        some (some FuncSentinel.opPos.word, zoo)) ∧
    (∃ zoo, CustomCall Mulacc.firstSel ⟨1021, 0, 0⟩ ∧
      ¬Signals Mulacc.firstSel ⟨1021, 0, 0⟩ ∧
      callFunc Mulacc.firstSel ⟨1021, 0, 0⟩ (afterMac 0x7FFFFFFF 1) =
        some (some FuncSentinel.opPos.word, zoo)) ∧
    ¬∀ (zoo : ZooStatics) (sysSel : CxSelidx) (cfCall : CfCall),
      ZooReachable zoo → CustomCall sysSel cfCall → ¬Signals sysSel cfCall →
      Ordinary (callFunc sysSel cfCall zoo) := by
  have addCustom : CustomCall (.ofIdx 0x10000001) ⟨0, 0x7FFFFFFF, 0⟩ :=
    ⟨⟨_, rfl⟩, trivial⟩
  have addSilent : ¬Signals (.ofIdx 0x10000001) ⟨0, 0x7FFFFFFF, 0⟩ := by
    intro signals
    rcases signals.2 with isThree | isFive | isSix <;> contradiction
  have readSilent : ¬Signals Mulacc.firstSel ⟨1021, 0, 0⟩ := fun signals =>
    absurd signals.1 (by decide)
  refine ⟨⟨_, addCustom, addSilent, rfl⟩, ⟨_,
    ⟨⟨_, rfl⟩, ⟨Mulacc.firstContext, rfl⟩⟩, readSilent, rfl⟩, ?_⟩
  intro everywhere
  obtain ⟨word, next, returned, ordinary⟩ := everywhere cxInitFuncs
    (.ofIdx 0x10000001) ⟨0, 0x7FFFFFFF, 0⟩ .refl addCustom addSilent
  cases returned
  exact ordinary ⟨.opPos, rfl⟩

end CxRuntime
