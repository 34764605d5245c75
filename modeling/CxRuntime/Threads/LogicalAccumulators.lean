import CxRuntime.Zoo.LogicalContexts

/-!
# The logical accumulators of threads

A thread selects a logical context of `mulacc` and runs custom instructions on
it; the kernel decides about the hardware contexts.
-/

namespace CxRuntime.Threads

def mac (a b : Word) : mulacc.Instruction :=
  ⟨⟨0, a, b⟩, .inl ⟨⟨Nat.zero_lt_succ _, trivial⟩, trivial⟩⟩

def reset : mulacc.Instruction :=
  ⟨⟨1, 0, 0⟩, .inl ⟨⟨Nat.le_add_left 2 3, trivial⟩, trivial⟩⟩

/-- `CX_READ_STATE(0)`. -/
def readState : mulacc.Instruction := ⟨⟨1021, 0, 0⟩, .inr ⟨rfl, trivial⟩⟩

/-- The accumulator and the status word that stand for a logical context. -/
def soloOf (here : mulacc.Context) (machine : mulacc.State) : SoloAcc :=
  Accumulator.soloOf machine here

theorem mulacc_numFuncs : mulacc.numFuncs ≤ maxCfIds := by decide

variable {κ : Type} [DecidableEq κ]

/-- A custom instruction moves one logical accumulator. -/
theorem exec_eq {kernel : mulacc.Kernel κ} {selectors : mulacc.Selectors}
    {here : mulacc.Context}
    {stands : kernel.State → (κ → mulacc.State) → Prop}
    (faithful : kernel.Faithful (selectors.sel here) stands)
    {accs : kernel.State} {machines : κ → mulacc.State}
    (isStanding : stands accs machines) (user : κ) (choice : kernel.Choice)
    (instruction : mulacc.Instruction) :
    ∃ next moved,
      kernel.exec user choice instruction accs =
        some ((Mulacc.soloFunc instruction.1.cfId instruction.1.a
          instruction.1.b (soloOf here (machines user))).2, next) ∧
      stands next (Function.update machines user moved) ∧
      soloOf here moved = (Mulacc.soloFunc instruction.1.cfId instruction.1.a
        instruction.1.b (soloOf here (machines user))).1 := by
  refine @Cxu.Kernel.Faithful.exec_solo mulacc κ _ kernel _ stands faithful _
    (soloOf here)
    (fun solo call => Mulacc.soloFunc call.cfId call.a call.b solo) ?_
    accs machines isStanding user choice instruction
  intro instruction machine
  obtain ⟨next, called, movedEq⟩ := mulacc_simulates machine
    ⟨selectors.sel here, here, selectors.located here, instruction.1,
      (instruction.2.admissible mulacc_numFuncs).1⟩
  refine ⟨next, called, ?_⟩
  rw [soloOf, movedEq, Function.update_self]
  rfl

/-- What an instruction returns and leaves in the accumulator depends on the
accumulator, not on the status word. -/
private theorem soloFunc_sees {cfCall : CfCall}
    (program : mulacc.ProgramCall (fun _ => True) cfCall)
    {solo other : SoloAcc} (same : solo.acc = other.acc) :
    (Mulacc.soloFunc cfCall.cfId cfCall.a cfCall.b solo).2 =
        (Mulacc.soloFunc cfCall.cfId cfCall.a cfCall.b other).2 ∧
      (Mulacc.soloFunc cfCall.cfId cfCall.a cfCall.b solo).1.acc =
        (Mulacc.soloFunc cfCall.cfId cfCall.a cfCall.b other).1.acc := by
  obtain ⟨cfId, a, b⟩ := cfCall
  have ids : cfId = 0 ∨ cfId = 1 ∨ cfId = 2 ∨ cfId = 3 ∨ cfId = 4 ∨
      cfId = 1021 := by
    rcases program with ⟨⟨userId, _⟩, _⟩ | ⟨isReadState, _⟩
    · change cfId < 5 at userId
      omega
    · change cfId = 1021 at isReadState
      omega
  rcases ids with rfl | rfl | rfl | rfl | rfl | rfl <;>
    simp [Mulacc.soloFunc, SoloAcc.accumulate, SoloAcc.reset, SoloAcc.nothing,
      SoloAcc.zeroMac, SoloAcc.readAcc, SoloAcc.readState, same]

theorem mulacc_seesWords : mulacc.SeesWords where
  admissible program := program.admissible mulacc_numFuncs
  alike := by
    intro leftSel leftContext rightSel rightContext leftLocated rightLocated
      left right alike instruction
    have isCall := instruction.2.admissible mulacc_numFuncs
    obtain ⟨nextLeft, calledLeft, movedLeft⟩ := mulacc_simulates left
      ⟨leftSel, leftContext, leftLocated, instruction.1, isCall.1⟩
    obtain ⟨nextRight, calledRight, movedRight⟩ := mulacc_simulates right
      ⟨rightSel, rightContext, rightLocated, instruction.1, isCall.1⟩
    obtain ⟨sameAnswer, sameAcc⟩ :=
      soloFunc_sees instruction.2 (soloOf_wordsAlike_iff.mp alike)
    refine ⟨_, nextLeft, nextRight, calledLeft, ?_, ?_⟩
    · rw [sameAnswer]
      exact calledRight
    · apply soloOf_wordsAlike_iff.mpr
      rw [movedLeft, movedRight, Function.update_self, Function.update_self]
      exact sameAcc

/-- The kernel that saves every context, with the selectors of `cx_open`. -/
abbrev savingKernel (κ : Type) [DecidableEq κ] : mulacc.Kernel κ :=
  Cxu.savingKernel κ Mulacc.selectors

theorem savingKernel_faithful :
    (savingKernel κ).Faithful (Mulacc.selectors.sel Mulacc.firstContext)
      (Cxu.WordsVirtual Mulacc.firstContext) :=
  Cxu.savingKernel_faithful κ mulacc_wordAccess mulacc_actsLocally
    mulacc_seesWords _ _

/-- No logical context is in the hardware, and all are as after the init
function. -/
def freshAccs (κ : Type) [DecidableEq κ] : (savingKernel κ).State :=
  { device := mulacc.initial
    placement := .empty
    images := fun _ => mulacc.imageOf mulacc.initial Mulacc.firstContext }

theorem freshAccs_virtual :
    Cxu.WordsVirtual Mulacc.firstContext (freshAccs κ)
      fun _ => mulacc.initial where
  kept := mulacc.initial_settled
  resident resides := by cases resides
  absent _ := ⟨Cxu.restingWord_iff.mpr (mulacc.initial_settled _), rfl⟩

end CxRuntime.Threads
