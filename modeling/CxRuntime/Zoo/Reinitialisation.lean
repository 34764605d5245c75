import CxRuntime.Zoo.Cxu

/-!
# Reinitialised contexts

What is left of the earlier content of a context after CF 1022 with
`CX_PRECLEAN` and after the user function that resets it.  The accumulators are
cleared by both.  The vector unit runs the same empty loop in both, so a word
survives unless it was already zero.
-/

namespace CxRuntime

namespace Cxu

variable (cxu : Cxu)

def Blank (context : cxu.Context) (state : cxu.State) : Prop :=
  ∀ index, index < cxu.stateSize.toNat →
    cxu.word state.data context index = 0

/-- CF 1022 blanks the context, leaves it dirty and touches no other context;
the user reset blanks it. -/
def Reinitialises (sysSel : CxSelidx) (context : cxu.Context)
    (writeStatus reset : CfCall) (state : cxu.State) : Prop :=
  (∃ returned next, cxu.call sysSel writeStatus state = some (returned, next) ∧
    cxu.Blank context next ∧
    next.cxuStctxStatus context = statusWord cxu.stateSize .dirty ∧
    ∀ other, other ≠ context → cxu.SameContext other next state) ∧
  ∃ returned next, cxu.call sysSel reset state = some (returned, next) ∧
    cxu.Blank context next

/-- Reinitialised after two histories, a context shows nothing that tells them
apart. -/
def LeavesNoResidue (sysSel : CxSelidx) (context : cxu.Context)
    (writeStatus reset : CfCall) (first second : cxu.State) : Prop :=
  cxu.Reinitialises sysSel context writeStatus reset first ∧
    cxu.Reinitialises sysSel context writeStatus reset second ∧
    (∀ {firstReturned secondReturned firstNext secondNext},
      cxu.call sysSel writeStatus first = some (firstReturned, firstNext) →
      cxu.call sysSel writeStatus second = some (secondReturned, secondNext) →
      cxu.SameContext context firstNext secondNext) ∧
    ∀ {firstReturned secondReturned firstNext secondNext},
      cxu.call sysSel reset first = some (firstReturned, firstNext) →
      cxu.call sysSel reset second = some (secondReturned, secondNext) →
      cxu.SameWords context firstNext secondNext

variable {cxu} {sysSel : CxSelidx} {context : cxu.Context}

private theorem Blank.sameWords {left right : cxu.State}
    (leftBlank : cxu.Blank context left) (rightBlank : cxu.Blank context right) :
    cxu.SameWords context left right := by
  intro index below
  rw [leftBlank index below, rightBlank index below]

private theorem leavesNoResidue_of_reinitialises {writeStatus reset : CfCall}
    {first second : cxu.State}
    (firstDone : cxu.Reinitialises sysSel context writeStatus reset first)
    (secondDone : cxu.Reinitialises sysSel context writeStatus reset second) :
    cxu.LeavesNoResidue sysSel context writeStatus reset first second := by
  refine ⟨firstDone, secondDone, ?_, ?_⟩
  · intro _ _ _ _ firstCalled secondCalled
    obtain ⟨⟨_, _, firstCall, firstBlank, firstStatus, _⟩, _⟩ := firstDone
    obtain ⟨⟨_, _, secondCall, secondBlank, secondStatus, _⟩, _⟩ := secondDone
    cases firstCall.symm.trans firstCalled
    cases secondCall.symm.trans secondCalled
    exact ⟨firstStatus.trans secondStatus.symm, firstBlank.sameWords secondBlank⟩
  · intro _ _ _ _ firstCalled secondCalled
    obtain ⟨_, _, _, firstCall, firstBlank⟩ := firstDone
    obtain ⟨_, _, _, secondCall, secondBlank⟩ := secondDone
    cases firstCall.symm.trans firstCalled
    cases secondCall.symm.trans secondCalled
    exact firstBlank.sameWords secondBlank

/-- A unit whose two resets are known reinitialises a context if both leave it
blank and the first spares the words of the others. -/
theorem reinitialises_iff (located : cxu.contextOf sysSel = some context)
    {value : Word} (decoded : (CxStctxs.ofIdx value).dc = CxCs.preclean.dc)
    (b : Word) {reset : CfCall} {state hwState userState : cxu.State}
    {returned : Returned}
    (hwReset : cxu.hwReset sysSel (state.setStatus context
      (statusWord cxu.stateSize .preclean)) = some hwState)
    (statusKept : hwState.cxuStctxStatus = (state.setStatus context
      (statusWord cxu.stateSize .preclean)).cxuStctxStatus)
    (othersKept : ∀ other, other ≠ context → cxu.SameWords other hwState state)
    (userReset : cxu.call sysSel reset state = some (returned, userState)) :
    cxu.Reinitialises sysSel context ⟨1022, value, b⟩ reset state ↔
      cxu.Blank context hwState ∧ cxu.Blank context userState := by
  have initialised :=
    call_writeStatus_preclean located decoded b hwReset statusKept
  constructor
  · intro reinitialises
    obtain ⟨⟨_, _, firstCall, hwBlank, _⟩, _, _, secondCall, userBlank⟩ :=
      reinitialises
    cases initialised.symm.trans firstCall
    cases userReset.symm.trans secondCall
    exact ⟨hwBlank, userBlank⟩
  · intro blank
    obtain ⟨hwBlank, userBlank⟩ := blank
    refine ⟨⟨_, _, initialised, hwBlank, CxuStatics.setStatus_same .., ?_⟩,
      _, _, userReset, userBlank⟩
    intro other different
    refine ⟨?_, othersKept other different⟩
    rw [CxuStatics.setStatus_of_ne _ different, statusKept,
      CxuStatics.setStatus_of_ne _ different]

end Cxu

/-! ## The three units -/

section Accumulators

variable {κ : Type} [DecidableEq κ]

theorem Accumulator.reset_others (statics : AccStatics κ) {context other : κ}
    (different : other ≠ context) (word : CxStctxs) :
    (Accumulator.setAcc (statics.setStatus context word) context 0).data other =
      statics.data other :=
  Accumulator.setAcc_of_ne _ different 0

end Accumulators

private theorem mulacc_reinitialises {sysSel : CxSelidx}
    {context : mulacc.Context}
    (located : mulacc.contextOf sysSel = some context) {value : Word}
    (decoded : (CxStctxs.ofIdx value).dc = CxCs.preclean.dc) (b resetA resetB : Word)
    (state : mulacc.State) :
    mulacc.Reinitialises sysSel context ⟨1022, value, b⟩
      ⟨mulacc.resetCfId, resetA, resetB⟩ state := by
  have userReset : mulacc.call sysSel ⟨mulacc.resetCfId, resetA, resetB⟩ state =
      some (some 0, Accumulator.setAcc state context 0) :=
    Accumulator.resetFunc_eq located resetA resetB state
  have cleared (statics : mulacc.State) :
      mulacc.Blank context (Accumulator.setAcc statics context 0) :=
    fun _ _ => Accumulator.setAcc_same statics context 0
  exact (Cxu.reinitialises_iff located decoded b
    (Accumulator.resetStatics_eq located _) rfl
    (fun _ different _ _ => Accumulator.reset_others state different _)
    userReset).mpr ⟨cleared _, cleared _⟩

private theorem nnAcc_reinitialises {sysSel : CxSelidx}
    {context : nnAcc.Context}
    (located : nnAcc.contextOf sysSel = some context) {value : Word}
    (decoded : (CxStctxs.ofIdx value).dc = CxCs.preclean.dc) (b resetA resetB : Word)
    (state : nnAcc.State) :
    nnAcc.Reinitialises sysSel context ⟨1022, value, b⟩
      ⟨nnAcc.resetCfId, resetA, resetB⟩ state := by
  have userReset : nnAcc.call sysSel ⟨nnAcc.resetCfId, resetA, resetB⟩ state =
      some (some 0, Accumulator.setAcc state context 0) :=
    Accumulator.resetFunc_eq located resetA resetB state
  have cleared (statics : nnAcc.State) :
      nnAcc.Blank context (Accumulator.setAcc statics context 0) :=
    fun _ _ => Accumulator.setAcc_same statics context 0
  exact (Cxu.reinitialises_iff located decoded b
    (Accumulator.resetStatics_eq located _) rfl
    (fun _ different _ _ => Accumulator.reset_others state different _)
    userReset).mpr ⟨cleared _, cleared _⟩

theorem vector_reinitialises_iff {sysSel : CxSelidx} {context : vector.Context}
    (located : vector.contextOf sysSel = some context) {value : Word}
    (decoded : (CxStctxs.ofIdx value).dc = CxCs.preclean.dc) (b resetA resetB : Word)
    (state : vector.State) :
    vector.Reinitialises sysSel context ⟨1022, value, b⟩
        ⟨vector.resetCfId, resetA, resetB⟩ state ↔
      vector.Blank context state := by
  obtain ⟨outcome, ran, _, staticsEq, _⟩ :=
    Vector.resetFunc_eq located resetA resetB state
  have userReset : vector.call sysSel ⟨vector.resetCfId, resetA, resetB⟩ state =
      some (outcome.returned, state) :=
    (Vector.TracedFunc.untraced_eq ran).trans
      (congrArg (fun statics => some (outcome.returned, statics)) staticsEq)
  rw [Cxu.reinitialises_iff located decoded b
    (Vector.resetStatics_eq located _) rfl (fun _ _ _ _ => rfl) userReset]
  exact ⟨fun both => both.2, fun blank => ⟨blank, blank⟩⟩

theorem setInc_leaves :
    ∃ filled, vector.call Vector.firstSel ⟨1, 0, 0⟩ vector.initial =
        some (some 0, filled) ∧
      vector.word filled.data Vector.firstContext 31 = 31 := by
  have located : vector.contextOf Vector.firstSel = some Vector.firstContext := rfl
  have operand : (0 : Word).toInt = ((0 : Nat) : Int) := by decide
  obtain ⟨outcome, ran, returned, staticsEq, _⟩ :=
    Vector.fillFunc_eq located (by decide) operand (fun i => BitVec.ofNat 32 i) 0
      Vector.initCxFuncVector
  refine ⟨outcome.statics, ?_, ?_⟩
  · rw [← returned]
    exact Vector.TracedFunc.untraced_eq ran
  · rw [staticsEq]
    have kept : Cells.overwrite Vector.initCxFuncVector.data
        (Vector.regBase Vector.firstContext 0) Vector.cxVectorVl
        (fun i => BitVec.ofNat 32 i)
        (Vector.regBase Vector.firstContext 0 + 31) = BitVec.ofNat 32 31 :=
      Cells.overwrite_inside _ (by decide) _
    exact kept

theorem not_blank_of_lane {state : vector.State}
    (lane : vector.word state.data Vector.firstContext 31 = 31) :
    ¬vector.Blank Vector.firstContext state := by
  intro blank
  have cleared := blank 31 (by decide)
  exact absurd (lane.symm.trans cleared) (by decide)

/-- The accumulators leave no residue; the vector unit leaves none exactly when
there was nothing to leave. -/
theorem leavesNoResidue_iff_nothing_to_clear {value : Word}
    (decoded : (CxStctxs.ofIdx value).dc = CxCs.preclean.dc)
    (b resetA resetB : Word) :
    (∀ cxu ∈ [mulacc, nnAcc], ∀ {sysSel context},
      cxu.contextOf sysSel = some context → ∀ first second,
        cxu.LeavesNoResidue sysSel context ⟨1022, value, b⟩
          ⟨cxu.resetCfId, resetA, resetB⟩ first second) ∧
    ∀ {sysSel context}, vector.contextOf sysSel = some context →
      ∀ first second,
        vector.LeavesNoResidue sysSel context ⟨1022, value, b⟩
            ⟨vector.resetCfId, resetA, resetB⟩ first second ↔
          vector.Blank context first ∧ vector.Blank context second := by
  constructor
  · intro cxu member sysSel context located first second
    apply Cxu.leavesNoResidue_of_reinitialises <;>
    · simp only [List.mem_cons, List.not_mem_nil, or_false] at member
      rcases member with rfl | rfl
      · exact mulacc_reinitialises located decoded b resetA resetB _
      · exact nnAcc_reinitialises located decoded b resetA resetB _
  · intro sysSel context located first second
    have reinitialises_iff :=
      vector_reinitialises_iff located decoded b resetA resetB
    constructor
    · intro clean
      obtain ⟨firstDone, secondDone, _⟩ := clean
      exact ⟨(reinitialises_iff first).mp firstDone,
        (reinitialises_iff second).mp secondDone⟩
    · intro blank
      obtain ⟨firstBlank, secondBlank⟩ := blank
      exact Cxu.leavesNoResidue_of_reinitialises
        ((reinitialises_iff first).mpr firstBlank)
        ((reinitialises_iff second).mpr secondBlank)

/-- 7 in an accumulator, and a register that CF 1 filled. -/
theorem leavesNoResidue_iff_nothing_to_clear_used :
    (∃ used, mulacc.call Mulacc.firstSel ⟨0, 7, 1⟩ mulacc.initial =
        some (some 7, used) ∧
      mulacc.LeavesNoResidue Mulacc.firstSel Mulacc.firstContext
        ⟨1022, 0x04000000, 0⟩ ⟨1, 0, 0⟩ mulacc.initial used) ∧
      ∃ filled, vector.call Vector.firstSel ⟨1, 0, 0⟩ vector.initial =
          some (some 0, filled) ∧
        ¬vector.LeavesNoResidue Vector.firstSel Vector.firstContext
          ⟨1022, 0x04000000, 0⟩ ⟨3, 0, 0⟩ vector.initial filled := by
  have decoded : (CxStctxs.ofIdx 0x04000000).dc = CxCs.preclean.dc := by decide
  obtain ⟨clears, residue_iff⟩ :=
    leavesNoResidue_iff_nothing_to_clear decoded 0 0 0
  obtain ⟨filled, called, lane⟩ := setInc_leaves
  refine ⟨⟨_, rfl, ?_⟩, filled, called, ?_⟩
  · exact clears mulacc List.mem_cons_self Mulacc.firstSel_located _ _
  · intro clean
    have blanks := (residue_iff Vector.firstSel_located _ _).mp clean
    exact not_blank_of_lane lane blanks.2

/-- After one call of CF 1, neither reset clears register 0. -/
theorem resets_leave_residue :
    ∃ state, vector.Reachable state ∧
      vector.call Vector.firstSel ⟨1, 0, 0⟩ vector.initial =
        some (some 0, state) ∧
      vector.contextOf Vector.firstSel = some Vector.firstContext ∧
      (CxStctxs.ofIdx 0x04000000).dc = CxCs.preclean.dc ∧
      ¬vector.LeavesNoResidue Vector.firstSel Vector.firstContext ⟨1022, 0x04000000, 0⟩
        ⟨3, 0, 0⟩ state state := by
  have located : vector.contextOf Vector.firstSel = some Vector.firstContext := rfl
  have decoded : (CxStctxs.ofIdx 0x04000000).dc = CxCs.preclean.dc := by decide
  obtain ⟨state, called, lane⟩ := setInc_leaves
  refine ⟨state, .single ⟨_, _, _, called⟩, called, located, decoded, ?_⟩
  intro clean
  obtain ⟨done, _⟩ := clean
  exact not_blank_of_lane lane
    ((vector_reinitialises_iff located decoded 0 0 0 _).mp done)

end CxRuntime
