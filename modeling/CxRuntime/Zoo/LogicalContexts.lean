import CxRuntime.Zoo.LazySpill

/-!
# Logical contexts of a kernel

A user program opens logical contexts, of which there may be more than hardware
contexts; which of them are in the hardware is up to the kernel.  The kernel is
no part of the repository, so it is a parameter here, and `Faithful` names what
the programs rely on.  Programs read no status word, so the law leaves open how
a kernel restores it (`ctx_test.c` expects `CX_CLEAN`).
-/

namespace CxRuntime

namespace Cxu

variable (cxu : Cxu)

/-- A custom instruction of a program: a user function or `CX_READ_STATE`. -/
abbrev Instruction := cxu.AllowedCall fun _ => True

/-- A kernel with the logical contexts `κ`.  A choice is what the kernel decides
when it executes an instruction, such as the hardware context to use. -/
structure Kernel (κ : Type) where
  State : Type
  Choice : Type
  exec : κ → Choice → cxu.Instruction → State → Option (Returned × State)

variable {cxu}

/-- `stands state machines`: every logical context stands for a context of a CXU
of its own, the one that `sysSel` selects.  An instruction on a logical context
then returns what it returns on that CXU, and moves no other one. -/
def Kernel.Faithful {κ : Type} [DecidableEq κ] (kernel : cxu.Kernel κ)
    (sysSel : CxSelidx) (stands : kernel.State → (κ → cxu.State) → Prop) :
    Prop :=
  ∀ {state machines}, stands state machines →
  ∀ (user : κ) (choice : kernel.Choice) (instruction : cxu.Instruction),
    ∃ returned next moved,
      kernel.exec user choice instruction state = some (returned, next) ∧
      cxu.call sysSel instruction.1 (machines user) = some (returned, moved) ∧
      stands next (Function.update machines user moved)

variable {κ : Type} [DecidableEq κ]

theorem Kernel.Faithful.exec_solo {kernel : cxu.Kernel κ} {sysSel : CxSelidx}
    {stands : kernel.State → (κ → cxu.State) → Prop}
    (faithful : kernel.Faithful sysSel stands) {α : Type}
    {soloOf : cxu.State → α} {soloStep : α → CfCall → α × Returned}
    (simulates : ∀ (instruction : cxu.Instruction) machine, ∃ next,
      cxu.call sysSel instruction.1 machine =
          some ((soloStep (soloOf machine) instruction.1).2, next) ∧
        soloOf next = (soloStep (soloOf machine) instruction.1).1)
    {state : kernel.State} {machines : κ → cxu.State}
    (isStanding : stands state machines) (user : κ) (choice : kernel.Choice)
    (instruction : cxu.Instruction) :
    ∃ next moved,
      kernel.exec user choice instruction state =
        some ((soloStep (soloOf (machines user)) instruction.1).2, next) ∧
      stands next (Function.update machines user moved) ∧
      soloOf moved =
        (soloStep (soloOf (machines user)) instruction.1).1 := by
  obtain ⟨returned, next, moved, executed, called, standsNext⟩ :=
    faithful isStanding user choice instruction
  obtain ⟨after, calledSolo, movedEq⟩ := simulates instruction (machines user)
  cases called.symm.trans calledSolo
  exact ⟨next, moved, executed, standsNext, movedEq⟩

theorem ProgramCall.admissible (within : cxu.numFuncs ≤ maxCfIds)
    {allowed : Nat → Prop} {cfCall : CfCall}
    (program : cxu.ProgramCall allowed cfCall) : cxu.Admissible cfCall := by
  rcases program with ⟨⟨userId, admitted⟩, _⟩ | ⟨isReadState, admitted⟩
  · exact ⟨Nat.lt_of_lt_of_le userId within, admitted⟩
  · rw [Admissible, isReadState]
    exact ⟨by decide, admitted⟩

/-! ## A switch that saves every context -/

/-- Instructions of programs see and move words only. -/
structure SeesWords (cxu : Cxu) : Prop where
  admissible : ∀ {cfCall}, cxu.ProgramCall (fun _ => True) cfCall →
    cxu.Admissible cfCall
  alike : ∀ {leftSel leftContext rightSel rightContext},
    cxu.contextOf leftSel = some leftContext →
    cxu.contextOf rightSel = some rightContext →
    ∀ {left right}, cxu.WordsAlike left leftContext right rightContext →
    ∀ instruction : cxu.Instruction, ∃ returned nextLeft nextRight,
      cxu.call leftSel instruction.1 left = some (returned, nextLeft) ∧
      cxu.call rightSel instruction.1 right = some (returned, nextRight) ∧
      cxu.WordsAlike nextLeft leftContext nextRight rightContext

/-- Every context that leaves the hardware is saved, and a restored one shows
`CX_CLEAN`. -/
def savingDevice (selectors : cxu.Selectors) :
    Multiplex.Device cxu.State cxu.Context Image cxu.Instruction Returned where
  spill slot _ state := (cxu.port (selectors.sel slot)).save state
  fill slot image state :=
    (cxu.port (selectors.sel slot)).restore (cleanImage image) state
  call slot instruction state :=
    (cxu.call (selectors.sel slot) instruction.1 state).map Prod.swap

/-- The hardware context has the words of the context `here`. -/
def WordsBack (here : cxu.Context) (state : cxu.State) (slot : cxu.Context)
    (_image : Image) (machine : cxu.State) : Prop :=
  cxu.WordsAlike state slot machine here

private theorem words_untouched {here slot : cxu.Context}
    {state next : cxu.State}
    (others : ∀ other, other ≠ slot → cxu.SameContext other next state) :
    Multiplex.Untouched (WordsBack here) slot state next := by
  intro other different _ machine alike index below
  exact ((others other different).2 index below).trans (alike index below)

theorem saving_laws (access : cxu.WordAccess) (acts : cxu.ActsLocally)
    (sees : SeesWords cxu) (selectors : cxu.Selectors) (here : cxu.Context) :
    Multiplex.Laws (savingDevice selectors)
      (cxu.ownCall selectors here fun _ => True)
      (fun state => state.AllSettled cxu.stateSize) (WordsBack here)
      (cxu.LazyHolds here) where
  spill := by
    intro state slot _ machine settled alike
    have resting := restingWord_iff.mpr (settled slot)
    have saved := (port_laws access (selectors.located slot)).save_eq resting
    refine ⟨cxu.imageOf state slot, state, saved, settled,
      ⟨resting, imageWords_iff.mpr alike⟩, ?_⟩
    exact words_untouched fun _ _ => ⟨rfl, fun _ _ => rfl⟩
  fill := by
    intro state image machine settled holds slot
    obtain ⟨next, restored, nextSettled, backs, others⟩ :=
      restore_cleanImage access (selectors.located slot) settled holds
    exact ⟨next, restored, nextSettled, backs.words, words_untouched others⟩
  call := by
    intro state slot _ machine settled alike instruction
    obtain ⟨returned, next, moved, called, calledAlone, nextAlike⟩ :=
      sees.alike (selectors.located slot) (selectors.located here) alike
        instruction
    refine ⟨next, returned, moved, ?_, ?_, call_settled settled called,
      nextAlike, ?_⟩
    · simp only [savingDevice, called, Option.map_some, Prod.swap_prod_mk]
    · simp only [ownCall, calledAlone, Option.map_some, Prod.swap_prod_mk]
    · exact words_untouched (acts.others (selectors.located slot)
        (sees.admissible instruction.2) called)

/-- Each logical context has its words in its slot or in its image. -/
def WordsVirtual (here : cxu.Context)
    (state : Multiplex.State cxu.State cxu.Context κ Image)
    (machines : κ → cxu.State) : Prop :=
  Multiplex.Represents (fun state => state.AllSettled cxu.stateSize)
    (WordsBack here) (cxu.LazyHolds here) state machines

/-! ## Kernels that switch through the state port -/

section Switch

variable (κ) {selectors : cxu.Selectors} {here : cxu.Context}

def switching (device : Multiplex.Device cxu.State cxu.Context Image
    cxu.Instruction Returned) : cxu.Kernel κ where
  State := Multiplex.State cxu.State cxu.Context κ Image
  Choice := cxu.Context
  exec user slot instruction state :=
    (Multiplex.step device state ⟨user, slot, instruction⟩).map fun moved =>
      (moved.2.2, moved.1)

theorem switching_faithful
    {device : Multiplex.Device cxu.State cxu.Context Image cxu.Instruction
      Returned}
    {kept : cxu.State → Prop}
    {backed : cxu.State → cxu.Context → Image → cxu.State → Prop}
    {holds : Image → cxu.State → Prop}
    (laws : Multiplex.Laws device (cxu.ownCall selectors here fun _ => True)
      kept backed holds) :
    (switching κ device).Faithful (selectors.sel here)
      (Multiplex.Represents kept backed holds) := by
  intro state machines represents user slot instruction
  obtain ⟨next, returned, moved, stepped, ranAlone, representsNext⟩ :=
    laws.step_represents represents ⟨user, slot, instruction⟩
  refine ⟨returned, next, moved, ?_, ?_, representsNext⟩
  · simp only [switching, stepped, Option.map_some]
  · obtain ⟨called, calledEq, swapped⟩ := Option.map_eq_some_iff.mp ranAlone
    rw [calledEq, ← Prod.swap_swap called, swapped, Prod.swap_prod_mk]

/-- The kernel that saves every context that leaves the hardware, and marks
restored contexts `CX_CLEAN`. -/
def savingKernel (selectors : cxu.Selectors) : cxu.Kernel κ :=
  switching κ (savingDevice selectors)

theorem savingKernel_faithful (access : cxu.WordAccess)
    (acts : cxu.ActsLocally) (sees : SeesWords cxu)
    (selectors : cxu.Selectors) (here : cxu.Context) :
    (savingKernel κ selectors).Faithful (selectors.sel here)
      (WordsVirtual here) :=
  switching_faithful κ (saving_laws access acts sees selectors here)

/-- The kernel that marks restored contexts `CX_CLEAN`, and saves no context
that still shows it. -/
def cleanKernel (selectors : cxu.Selectors) : cxu.Kernel κ :=
  switching κ (cxu.programDevice selectors fun _ => True)

theorem cleanKernel_faithful (access : cxu.WordAccess)
    (acts : cxu.ActsLocally) (marks : cxu.MarksChanges fun _ => True)
    (selectors : cxu.Selectors) (here : cxu.Context) :
    (cleanKernel κ selectors).Faithful (selectors.sel here)
      (LazyVirtual here) :=
  switching_faithful κ (lazy_laws access acts marks selectors here)

end Switch

end Cxu

end CxRuntime
