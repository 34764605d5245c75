import CxRuntime.Zoo.Cxu

/-!
# The state access port

The contract of `CX_WRITE_STATE` and `CX_READ_STATE`, which both pass the index
in the first operand.  The accumulators read it from the second operand, where
`CX_READ_STATE` passes 0; the vector unit rejects indices past the end but not
negative ones.
-/

namespace CxRuntime

namespace Cxu

variable (cxu : Cxu)

/-- `CX_WRITE_STATE(index, value)`. -/
def writeState (sysSel : CxSelidx) (index value : Word) (state : cxu.State) :
    Option (Returned × cxu.State) :=
  cxu.call sysSel ⟨1020, index, value⟩ state

/-- `CX_READ_STATE(index)`. -/
def readState (sysSel : CxSelidx) (index : Word) (state : cxu.State) :
    Option (Returned × cxu.State) :=
  cxu.call sysSel ⟨1021, index, 0⟩ state

def readWord (sysSel : CxSelidx) (index : Word) (state : cxu.State) :
    Option Returned :=
  (cxu.readState sysSel index state).map Prod.fst

def InRange (index : Word) : Prop :=
  0 ≤ index.toInt ∧ index.toInt < cxu.stateSize.toNat

/-- A call that stays inside the data of its context: it does not fault, leaves
the other contexts, and returns what it returns whatever they hold. -/
def StaysInside (context : cxu.Context)
    (call : cxu.State → Option (Returned × cxu.State)) (state : cxu.State) :
    Prop :=
  ∃ returned next, call state = some (returned, next) ∧
    (∀ other, other ≠ context → cxu.SameContext other next state) ∧
    ∀ alike, cxu.SameContext context state alike →
      ∃ nextAlike, call alike = some (returned, nextAlike)

/-- The contract of the port at one index. -/
structure PortContract (sysSel : CxSelidx) (context : cxu.Context)
    (state : cxu.State) (index : Word) : Prop where
  inside : cxu.InRange index → ∀ value, ∃ returned next,
    cxu.writeState sysSel index value state = some (returned, next) ∧
      cxu.readWord sysSel index next = some (some value) ∧
      ∀ other, cxu.InRange other → other ≠ index →
        cxu.readWord sysSel other next = cxu.readWord sysSel other state
  outside : ¬cxu.InRange index → ∀ value, ∃ next,
    cxu.writeState sysSel index value state = some (some 0xFFFFFFFF, next) ∧
      (∀ other, cxu.SameWords other next state) ∧
      cxu.readWord sysSel index state = some (some 0xFFFFFFFF) ∧
      cxu.StaysInside context (cxu.writeState sysSel index value) state ∧
      cxu.StaysInside context (cxu.readState sysSel index) state

variable {cxu} {sysSel : CxSelidx} {context : cxu.Context}

/-- A call that changes nothing and returns a function of its context. -/
theorem staysInside_of_pure
    {call : cxu.State → Option (Returned × cxu.State)} {state : cxu.State}
    (answer : cxu.State → Returned)
    (called : ∀ state, call state = some (answer state, state))
    (own : ∀ alike, cxu.SameContext context state alike →
      answer alike = answer state) :
    cxu.StaysInside context call state := by
  refine ⟨answer state, state, called state, ?_, ?_⟩
  · exact fun _ _ => ⟨rfl, fun _ _ => rfl⟩
  · intro alike same
    refine ⟨alike, ?_⟩
    rw [called alike, own alike same]

end Cxu

/-! ## The accumulators -/

/-- The port of an accumulator context as the code has it. -/
structure Cxu.AccumulatorPort (cxu : Cxu) (sysSel : CxSelidx)
    (context : cxu.Context) : Prop where
  sizeOne : cxu.stateSize = 1
  read_eq : ∀ index state, cxu.readState sysSel index state =
    some (some (cxu.word state.data context 0), state)
  write_zero : ∀ value state, ∃ next,
    cxu.writeState sysSel 0 value state = some (none, next) ∧
      cxu.word next.data context 0 = value
  write_other : ∀ {index}, index ≠ 0 → ∀ value state,
    cxu.writeState sysSel index value state = some (some 0xFFFFFFFF, state)

namespace Cxu.AccumulatorPort

variable {cxu : Cxu} {sysSel : CxSelidx} {context : cxu.Context}

private theorem inRange_iff (port : cxu.AccumulatorPort sysSel context)
    (index : Word) :
    cxu.InRange index ↔ index = 0 := by
  rw [InRange, port.sizeOne]
  constructor
  · intro inRange
    obtain ⟨nonneg, below⟩ := inRange
    apply BitVec.eq_of_toInt_eq
    change index.toInt < 1 at below
    change index.toInt = 0
    omega
  · intro isZero
    subst isZero
    decide

theorem readWord_eq (port : cxu.AccumulatorPort sysSel context) (index : Word)
    (state : cxu.State) :
    cxu.readWord sysSel index state =
      some (some (cxu.word state.data context 0)) := by
  rw [readWord, port.read_eq, Option.map_some]

/-- Reads at a wrong index return the accumulator instead of the error. -/
theorem portContract_iff (port : cxu.AccumulatorPort sysSel context)
    (state : cxu.State) (index : Word) :
    cxu.PortContract sysSel context state index ↔
      index = 0 ∨ cxu.word state.data context 0 = 0xFFFFFFFF := by
  constructor
  · intro contract
    by_cases isZero : index = 0
    · exact Or.inl isZero
    · have notInRange : ¬cxu.InRange index :=
        fun inRange => isZero ((port.inRange_iff index).mp inRange)
      obtain ⟨_, _, _, read, _⟩ := contract.outside notInRange 0
      rw [port.readWord_eq] at read
      exact Or.inr (Option.some.inj (Option.some.inj read))
  · intro condition
    constructor
    · intro inRange value
      obtain rfl := (port.inRange_iff index).mp inRange
      obtain ⟨next, written, stored⟩ := port.write_zero value state
      refine ⟨none, next, written, ?_, ?_⟩
      · rw [port.readWord_eq, stored]
      · intro other otherInRange different
        exact absurd ((port.inRange_iff other).mp otherInRange) different
    · intro notInRange value
      have notZero : index ≠ 0 :=
        fun isZero => notInRange ((port.inRange_iff index).mpr isZero)
      have allOnes := condition.resolve_left notZero
      refine ⟨state, port.write_other notZero value state, ?_, ?_, ?_, ?_⟩
      · exact fun _ _ _ => rfl
      · rw [port.readWord_eq, allOnes]
      · exact staysInside_of_pure (fun _ => some 0xFFFFFFFF)
          (port.write_other notZero value) (fun _ _ => rfl)
      · apply staysInside_of_pure
          (fun state => some (cxu.word state.data context 0))
          (port.read_eq index)
        intro alike same
        have below : 0 < cxu.stateSize.toNat := by
          rw [port.sizeOne]
          exact Nat.one_pos
        exact congrArg some (same.2 0 below).symm

end Cxu.AccumulatorPort

theorem Accumulator.writeStateFunc_other {κ : Type} [DecidableEq κ]
    {contextOf : CxSelidx → Option κ} {sysSel : CxSelidx} {context : κ}
    (located : contextOf sysSel = some context) {index : Word}
    (notZero : index ≠ 0) (value : Word) (statics : AccStatics κ) :
    writeStateFunc contextOf index value sysSel statics =
      some (some 0xFFFFFFFF, statics) := by
  simp only [writeStateFunc, located, Option.bind_eq_bind, Option.bind_some,
    if_neg notZero]

private theorem mulacc_accumulatorPort {sysSel : CxSelidx}
    {context : mulacc.Context}
    (located : mulacc.contextOf sysSel = some context) :
    mulacc.AccumulatorPort sysSel context where
  sizeOne := rfl
  read_eq := fun index state =>
    Accumulator.readStateFunc_eq located index state
  write_zero := fun value state =>
    ⟨_, Accumulator.writeStateFunc_eq located value state,
      Accumulator.setAcc_same state context value⟩
  write_other := fun notZero value state =>
    Accumulator.writeStateFunc_other located notZero value state

private theorem nnAcc_accumulatorPort {sysSel : CxSelidx}
    {context : nnAcc.Context}
    (located : nnAcc.contextOf sysSel = some context) :
    nnAcc.AccumulatorPort sysSel context where
  sizeOne := rfl
  read_eq := fun index state =>
    Accumulator.readStateFunc_eq located index state
  write_zero := fun value state =>
    ⟨_, Accumulator.writeStateFunc_eq located value state,
      Accumulator.setAcc_same state context value⟩
  write_other := fun notZero value state =>
    Accumulator.writeStateFunc_other located notZero value state

/-! ## The vector unit -/

namespace Vector

variable {sysSel : CxSelidx} {context : Context}

def PortTouchesOwn (sysSel : CxSelidx) (context : Context) (statics : Statics)
    (index : Word) : Prop :=
  ∀ value, ∀ access ∈ [vectorWriteStateFunc index value,
      vectorReadStateFunc index 0],
    ∃ outcome, access sysSel statics = some outcome ∧
      ∀ position ∈ outcome.touched, Own context position

/-- A write at a negative index that does not fault returns the value. -/
theorem vectorWriteStateFunc_returned {index value : Word}
    (notPast : ¬(cxVectorStateSize : Int) ≤ index.toInt) {statics : Statics}
    {outcome : Outcome}
    (ran : vectorWriteStateFunc index value sysSel statics = some outcome) :
    outcome.returned = some value := by
  obtain ⟨context, _, rest⟩ := Option.bind_eq_some_iff.mp ran
  rw [if_neg notPast] at rest
  obtain ⟨stored, _, equality⟩ := Option.bind_eq_some_iff.mp rest
  cases equality
  rfl

private theorem readWord_ofNat (located : contextOf sysSel = some context)
    {index : Nat} (below : index < cxVectorStateSize) (state : vector.State) :
    vector.readWord sysSel (BitVec.ofNat 32 index) state =
      some (some (wordOf state.data context index)) :=
  congrArg (Option.map Prod.fst)
    (vectorReadStateFunc_eq located below 0 state)

private theorem portContract_of_inRange
    (located : contextOf sysSel = some context)
    (state : vector.State) {index : Word} (inRange : IndexOperand index) :
    vector.PortContract sysSel context state index := by
  obtain ⟨offset, below, rfl⟩ := inRange.exists_index
  constructor
  · intro _ value
    refine ⟨_, _, vectorWriteStateFunc_eq located below value state, ?_, ?_⟩
    · apply (readWord_ofNat located below _).trans
      exact congrArg (fun word => some (some word)) (Function.update_self ..)
    · intro other otherInRange different
      obtain ⟨otherOffset, otherBelow, rfl⟩ :=
        IndexOperand.exists_index otherInRange
      have apart : regBase context 0 + otherOffset ≠ regBase context 0 + offset := by
        intro same
        rw [Nat.add_left_cancel same] at different
        exact different rfl
      apply (readWord_ofNat located otherBelow _).trans
      apply Eq.trans ?_ (readWord_ofNat located otherBelow state).symm
      exact congrArg (fun word => some (some word))
        (Function.update_of_ne apart ..)
  · exact fun notInRange => absurd inRange notInRange

private theorem portContract_of_past (located : contextOf sysSel = some context)
    (state : vector.State) {index : Word}
    (past : (cxVectorStateSize : Int) ≤ index.toInt) :
    vector.PortContract sysSel context state index := by
  have written : ∀ value (state : vector.State),
      vector.writeState sysSel index value state =
        some (some 0xFFFFFFFF, state) := fun value state =>
    TracedFunc.untraced_eq (vectorWriteStateFunc_past located past value state)
  have read : ∀ state : vector.State, vector.readState sysSel index state =
      some (some 0xFFFFFFFF, state) := fun state =>
    TracedFunc.untraced_eq (vectorReadStateFunc_past located past 0 state)
  constructor
  · intro inRange
    have below : index.toInt < (cxVectorStateSize : Int) := inRange.2
    omega
  · intro _ value
    refine ⟨state, written value state, ?_, ?_, ?_, ?_⟩
    · exact fun _ _ _ => rfl
    · rw [Cxu.readWord, read, Option.map_some]
    · exact Cxu.staysInside_of_pure (fun _ => some 0xFFFFFFFF)
        (written value) (fun _ _ => rfl)
    · exact Cxu.staysInside_of_pure (fun _ => some 0xFFFFFFFF) read
        (fun _ _ => rfl)

/-- Negative indices are never answered with the error. -/
theorem portContract_iff (located : contextOf sysSel = some context)
    (state : vector.State) (index : Word) :
    vector.PortContract sysSel context state index ↔ 0 ≤ index.toInt := by
  constructor
  · intro contract
    by_contra negative
    have notInRange : ¬vector.InRange index :=
      fun inRange => negative inRange.1
    have notPast : ¬(cxVectorStateSize : Int) ≤ index.toInt := by
      simp only [cxVectorStateSize, cxVectorVl, cxVectorNumRegs]
      omega
    obtain ⟨next, written, _⟩ := contract.outside notInRange 0
    obtain ⟨outcome, ran, equality⟩ := Option.map_eq_some_iff.mp written
    have returned := vectorWriteStateFunc_returned notPast ran
    have answered : outcome.returned = some 0xFFFFFFFF :=
      congrArg Prod.fst equality
    have same : (0xFFFFFFFF : Word) = 0 :=
      Option.some.inj (answered.symm.trans returned)
    exact absurd same (by decide)
  · intro nonneg
    by_cases below : index.toInt < (cxVectorStateSize : Int)
    · exact portContract_of_inRange located state ⟨nonneg, below⟩
    · exact portContract_of_past located state (by omega)

/-- An index outside `0..127` that does not fault touches nothing elsewhere. -/
theorem portTouchesOwn_of_past (located : contextOf sysSel = some context)
    (statics : Statics) {index : Word}
    (past : (cxVectorStateSize : Int) ≤ index.toInt) :
    PortTouchesOwn sysSel context statics index := by
  intro value access member
  simp only [List.mem_cons, List.not_mem_nil, or_false] at member
  rcases member with rfl | rfl
  · exact ⟨_, vectorWriteStateFunc_past located past value statics,
      fun _ absent => absurd absent List.not_mem_nil⟩
  · exact ⟨_, vectorReadStateFunc_past located past 0 statics,
      fun _ absent => absurd absent List.not_mem_nil⟩

end Vector

/-- The port keeps its contract at an index exactly if, for the accumulators, the
index is 0 or the accumulator happens to hold the error word, and, for the
vector unit, the index is not negative. -/
theorem portContract_iff_index_served (index : Word) :
    (∀ {sysSel context}, mulacc.contextOf sysSel = some context →
      ∀ state, mulacc.PortContract sysSel context state index ↔
        index = 0 ∨ mulacc.word state.data context 0 = 0xFFFFFFFF) ∧
    (∀ {sysSel context}, nnAcc.contextOf sysSel = some context →
      ∀ state, nnAcc.PortContract sysSel context state index ↔
        index = 0 ∨ nnAcc.word state.data context 0 = 0xFFFFFFFF) ∧
    ∀ {sysSel context}, vector.contextOf sysSel = some context →
      ∀ state,
        (vector.PortContract sysSel context state index ∧
            (¬vector.InRange index →
              Vector.PortTouchesOwn sysSel context state index)) ↔
          0 ≤ index.toInt := by
  refine ⟨?_, ?_, ?_⟩
  · intro sysSel context located state
    exact (mulacc_accumulatorPort located).portContract_iff state index
  · intro sysSel context located state
    exact (nnAcc_accumulatorPort located).portContract_iff state index
  · intro sysSel context located state
    constructor
    · intro both
      exact (Vector.portContract_iff located state index).mp both.1
    · intro nonneg
      refine ⟨(Vector.portContract_iff located state index).mpr nonneg, ?_⟩
      intro notInRange
      apply Vector.portTouchesOwn_of_past located
      by_contra below
      exact notInRange ⟨nonneg, Int.not_le.mp below⟩

theorem portContract_iff_index_served_first :
    (mulacc.PortContract Mulacc.firstSel Mulacc.firstContext mulacc.initial 0 ↔
      (0 : Word) = 0 ∨
        mulacc.word mulacc.initial.data Mulacc.firstContext 0 = 0xFFFFFFFF) ∧
    ((vector.PortContract Vector.firstSel Vector.firstContext vector.initial
          0 ∧
        (¬vector.InRange 0 →
          Vector.PortTouchesOwn Vector.firstSel Vector.firstContext
            vector.initial 0)) ↔
      0 ≤ (0 : Word).toInt) :=
  ⟨(portContract_iff_index_served 0).1 Mulacc.firstSel_located mulacc.initial,
    (portContract_iff_index_served 0).2.2 Vector.firstSel_located
      vector.initial⟩

/-- After initialisation, reading index 1 of `mulacc` returns the accumulator, and
writing 5 at index -128 of the vector unit stores it in word 0. -/
theorem port_serves_wrong_indices :
    (mulacc.readWord Mulacc.firstSel 1 mulacc.initial = some (some 0) ∧
      ¬mulacc.PortContract Mulacc.firstSel Mulacc.firstContext mulacc.initial
        1) ∧
    (vector.writeState Vector.firstSel (-128) 5 vector.initial).map Prod.fst =
        some (some 5) ∧
      ¬vector.PortContract Vector.firstSel Vector.firstContext vector.initial
        (-128) := by
  have read : mulacc.readWord Mulacc.firstSel 1 mulacc.initial =
      some (some 0) := rfl
  have written : (vector.writeState Vector.firstSel (-128) 5
      vector.initial).map Prod.fst = some (some 5) := rfl
  refine ⟨⟨read, ?_⟩, written, ?_⟩
  · intro contract
    have notInRange : ¬mulacc.InRange 1 := fun inRange =>
      absurd inRange.2 (by decide)
    obtain ⟨_, _, _, error, _⟩ := contract.outside notInRange 0
    exact absurd (read.symm.trans error) (by decide)
  · intro contract
    have notInRange : ¬vector.InRange (-128) := fun inRange =>
      absurd inRange.1 (by decide)
    obtain ⟨_, error, _⟩ := contract.outside notInRange 5
    rw [error] at written
    have same : (0xFFFFFFFF : Word) = 5 :=
      Option.some.inj (Option.some.inj written)
    exact absurd same (by decide)

end CxRuntime
