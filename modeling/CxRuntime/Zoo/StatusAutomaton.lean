import CxRuntime.Zoo.ClientIsolation

/-!
# The status word as an automaton

A kernel decides by the status word of a context whether to save it.  What the
word shows is decided by the instruction stream alone: it is moved by the CF ids
of the calls on the context and by the words given to CF 1022, never by operands
or by the contents of the context, and `CX_PRECLEAN` never shows.
-/

namespace CxRuntime

/-- What CF 1022 leaves: `CX_PRECLEAN` is `CX_DIRTY` when its reset is done. -/
def csWritten (value : Word) : CxCs :=
  if (CxStctxs.ofIdx value).dc = CxCs.off.dc then .off
  else if (CxStctxs.ofIdx value).dc = CxCs.clean.dc then .clean
  else .dirty

namespace StatefulCxu

/-- The user functions that set `CX_DIRTY`. -/
def marks : StatefulCxu → List Nat
  | .mulacc => [0]
  | .vector => [0, 1, 2]
  | .nnAcc => [0, 2]

/-- The user functions that set `CX_CLEAN`. -/
def sweeps : StatefulCxu → List Nat
  | .mulacc => [3, 4]
  | .vector => []
  | .nnAcc => []

/-- The automaton: the state after one more call. -/
def csAfter (unit : StatefulCxu) (cs : CxCs) (call : CfCall) : CxCs :=
  if call.cfId ∈ unit.marks then .dirty
  else if call.cfId ∈ unit.sweeps then .clean
  else if call.cfId = 1022 then csWritten call.a
  else cs

end StatefulCxu

/-! ## One context -/

private theorem SoloAcc.writeStatus_status {cs : CxCs} (value b acc : Word) :
    (writeStatus value b ⟨acc, statusWord 1 cs⟩).1.status =
      statusWord 1 (csWritten value) := by
  obtain ⟨written, decoded⟩ := CxCs.dc_surjective (CxStctxs.ofIdx value).dc
  simp only [writeStatus, csWritten, ← decoded, CxCs.dc_injective.eq_iff]
  cases written <;> rfl

private theorem Vector.SoloVec.writeStatus_status {cs : CxCs} (value b : Word)
    (regs : RegFile) :
    (writeStatus value b ⟨regs, statusWord stateSize cs⟩).1.status =
      statusWord stateSize (csWritten value) := by
  obtain ⟨written, decoded⟩ := CxCs.dc_surjective (CxStctxs.ofIdx value).dc
  simp only [writeStatus, csWritten, ← decoded, CxCs.dc_injective.eq_iff]
  cases written <;> rfl

/-- CF 1020 to 1023 and the undefined functions of an accumulator. -/
theorem SoloAcc.system_status (call : CfCall) (cs : CxCs) (acc : Word) :
    ((if call.cfId = 1020 then writeState
      else if call.cfId = 1021 then readState
      else if call.cfId = 1022 then writeStatus
      else if call.cfId = 1023 then readStatus
      else undefined) call.a call.b ⟨acc, statusWord 1 cs⟩).1.status =
      statusWord 1 (if call.cfId = 1022 then csWritten call.a else cs) := by
  obtain ⟨cfId, a, b⟩ := call
  by_cases isWriteStatus : cfId = 1022
  · subst isWriteStatus
    exact writeStatus_status a b acc
  simp only [isWriteStatus, if_false]
  split
  · unfold writeState
    split <;> rfl
  split
  · rfl
  split <;> rfl

private theorem Mulacc.soloFunc_status (call : CfCall) {solo : SoloAcc}
    {cs : CxCs}
    (shows : solo.status = statusWord 1 cs) :
    (soloFunc call.cfId call.a call.b solo).1.status =
      statusWord 1 (StatefulCxu.mulacc.csAfter cs call) := by
  obtain ⟨acc, _⟩ := solo
  subst shows
  have system := SoloAcc.system_status call cs acc
  obtain ⟨cfId, a, b⟩ := call
  by_cases isMac : cfId = 0
  · subst isMac
    rfl
  by_cases isReset : cfId = 1
  · subst isReset
    rfl
  by_cases isNothing : cfId = 2
  · subst isNothing
    rfl
  by_cases isZeroMac : cfId = 3
  · subst isZeroMac
    rfl
  by_cases isReadAcc : cfId = 4
  · subst isReadAcc
    rfl
  simpa [soloFunc, StatefulCxu.csAfter, StatefulCxu.marks, StatefulCxu.sweeps,
    isMac, isReset, isNothing, isZeroMac, isReadAcc] using system

private theorem NnAcc.soloFunc_status (call : CfCall) {solo : SoloAcc}
    {cs : CxCs}
    (shows : solo.status = statusWord 1 cs) :
    (soloFunc call.cfId call.a call.b solo).1.status =
      statusWord 1 (StatefulCxu.nnAcc.csAfter cs call) := by
  obtain ⟨acc, _⟩ := solo
  subst shows
  have system := SoloAcc.system_status call cs acc
  obtain ⟨cfId, a, b⟩ := call
  by_cases isNnAcc : cfId = 0
  · subst isNnAcc
    rfl
  by_cases isReset : cfId = 1
  · subst isReset
    rfl
  by_cases isRelu : cfId = 2
  · subst isRelu
    rfl
  simpa [soloFunc, StatefulCxu.csAfter, StatefulCxu.marks, StatefulCxu.sweeps,
    isNnAcc, isReset, isRelu] using system

private theorem Vector.soloFunc_status (call : CfCall) {solo : SoloVec}
    {cs : CxCs}
    (shows : solo.status = statusWord stateSize cs) :
    (soloFunc call.cfId call.a call.b solo).1.status =
      statusWord stateSize (StatefulCxu.vector.csAfter cs call) := by
  obtain ⟨regs, _⟩ := solo
  subst shows
  obtain ⟨cfId, a, b⟩ := call
  by_cases isAdd : cfId = 0
  · subst isAdd
    rfl
  by_cases isSetInc : cfId = 1
  · subst isSetInc
    rfl
  by_cases isSet2 : cfId = 2
  · subst isSet2
    rfl
  by_cases isWriteStatus : cfId = 1022
  · subst isWriteStatus
    exact SoloVec.writeStatus_status a b regs
  simp only [soloFunc, StatefulCxu.csAfter, StatefulCxu.marks,
    StatefulCxu.sweeps, isAdd, isSetInc, isSet2, isWriteStatus, List.mem_cons,
    List.not_mem_nil, or_self, if_false]
  split
  · rfl
  split
  · rfl
  split
  · rfl
  split <;> rfl

/-! ## Calls on any contexts -/

private theorem statuses_moved {κ α : Type} [DecidableEq κ] {context : κ}
    {moved : α}
    {before after : κ → α}
    (isMoved : after = Function.update before context moved)
    (statusOf : α → CxStctxs) {stateSize : BitVec 16} {shown : κ → CxCs}
    (shows : ∀ other, statusOf (before other) =
      statusWord stateSize (shown other))
    {cs : CxCs} (movedShows : statusOf moved = statusWord stateSize cs)
    (other : κ) :
    statusOf (after other) =
      statusWord stateSize (Function.update shown context cs other) := by
  subst isMoved
  by_cases same : other = context
  · subst same
    rwa [Function.update_self, Function.update_self]
  · rw [Function.update_of_ne same, Function.update_of_ne same]
    exact shows other

def Shows (cxu : Cxu) (state : cxu.State) (shown : cxu.Context → CxCs) : Prop :=
  ∀ context, state.cxuStctxStatus context =
    statusWord cxu.stateSize (shown context)

namespace StatefulCxu

private theorem call_shows (unit : StatefulCxu) (call : unit.cxu.LocatedCall)
    (admissible : unit.cxu.Admissible call.cfCall) {state : unit.cxu.State}
    {shown : unit.cxu.Context → CxCs} (shows : Shows unit.cxu state shown) :
    ∃ returned next,
      unit.cxu.call call.sysSel call.cfCall state = some (returned, next) ∧
      Shows unit.cxu next (Function.update shown call.context
        (unit.csAfter (shown call.context) call.cfCall)) := by
  cases unit with
  | mulacc =>
      obtain ⟨next, called, isMoved⟩ := mulacc_simulates state call
      refine ⟨_, next, called, ?_⟩
      apply statuses_moved isMoved SoloAcc.status shows
      exact Mulacc.soloFunc_status call.cfCall (shows call.context)
  | vector =>
      obtain ⟨next, called, isMoved⟩ :=
        vector_simulates call.located admissible state
      refine ⟨_, next, called, ?_⟩
      apply statuses_moved isMoved Vector.SoloVec.status shows
      exact Vector.soloFunc_status call.cfCall (shows call.context)
  | nnAcc =>
      obtain ⟨next, called, isMoved⟩ := nnAcc_simulates state call
      refine ⟨_, next, called, ?_⟩
      apply statuses_moved isMoved SoloAcc.status shows
      exact NnAcc.soloFunc_status call.cfCall (shows call.context)

private theorem initial_shows (unit : StatefulCxu) :
    Shows unit.cxu unit.cxu.initial fun _ => .off := by
  cases unit <;> exact fun _ => rfl

private theorem run_shows (unit : StatefulCxu)
    {calls : List unit.cxu.LocatedCall}
    (admissible : ∀ call ∈ calls, unit.cxu.Admissible call.cfCall)
    {state : unit.cxu.State} {shown : unit.cxu.Context → CxCs}
    (shows : Shows unit.cxu state shown) :
    ∃ final answers,
      Transition.run unit.cxu.callOn state calls = some (final, answers) ∧
      Shows unit.cxu final fun context =>
        (Cxu.callsOn context calls).foldl unit.csAfter (shown context) := by
  induction calls generalizing state shown with
  | nil => exact ⟨state, [], rfl, shows⟩
  | cons call calls induction =>
      obtain ⟨returned, next, called, nextShows⟩ := unit.call_shows call
        (admissible call List.mem_cons_self) shows
      obtain ⟨final, answers, ran, finalShows⟩ := induction
        (fun other member =>
          admissible other (List.mem_cons_of_mem call member)) nextShows
      refine ⟨final, (call.context, returned) :: answers, ?_, ?_⟩
      · simp only [Transition.run, Cxu.callOn, called, Option.map_some,
          Option.bind_some]
        rw [ran, Option.map_some]
      · intro context
        rw [finalShows context]
        dsimp only
        by_cases same : call.context = context
        · subst same
          rw [Function.update_self, Cxu.callsOn, Cxu.callsOn, List.map_cons,
            Product.only_cons_same, List.foldl_cons]
        · have apart : context ≠ call.context := fun equality =>
            same equality.symm
          rw [Function.update_of_ne apart, Cxu.callsOn, Cxu.callsOn,
            List.map_cons, Product.only_cons_other same]

end StatefulCxu

/-- After any admissible calls on any contexts, CF 1023 returns the word of the
automaton that has run on the calls of its context. -/
theorem status_is_automaton (unit : StatefulCxu)
    {calls : List unit.cxu.LocatedCall}
    (admissible : ∀ call ∈ calls, unit.cxu.Admissible call.cfCall) :
    ∃ final answers,
      Transition.run unit.cxu.callOn unit.cxu.initial calls =
        some (final, answers) ∧
      ∀ {sysSel context}, unit.cxu.contextOf sysSel = some context →
        ∀ a b, unit.cxu.call sysSel ⟨1023, a, b⟩ final =
          some (some (statusWord unit.cxu.stateSize
            ((Cxu.callsOn context calls).foldl unit.csAfter .off)).idx,
              final) := by
  obtain ⟨final, answers, ran, shows⟩ :=
    unit.run_shows admissible unit.initial_shows
  refine ⟨final, answers, ran, ?_⟩
  intro sysSel context located a b
  rw [Cxu.call_readStatus located, shows context]

/-- A context that accumulates is dirty, and clean again after CF 4. -/
theorem status_is_automaton_swept :
    let call (cfId : Nat) (defined : cfId < maxCfIds) (a b : Word) :
        mulacc.LocatedCall :=
      ⟨Mulacc.firstSel, Mulacc.firstContext, rfl, ⟨cfId, a, b⟩, defined⟩
    ∃ final answers,
      Transition.run mulacc.callOn mulacc.initial
        [call 1022 (by decide) 0x0c000000 0, call 0 (by decide) 3 5,
          call 4 (by decide) 0 0] = some (final, answers) ∧
      mulacc.call Mulacc.firstSel ⟨1023, 0, 0⟩ final =
        some (some (statusWord 1 .clean).idx, final) := by
  intro call
  obtain ⟨final, answers, ran, shows⟩ := @status_is_automaton .mulacc
    [call 1022 (by decide) 0x0c000000 0, call 0 (by decide) 3 5,
      call 4 (by decide) 0 0] (fun other _ => ⟨other.defined, trivial⟩)
  exact ⟨final, answers, ran, shows Mulacc.firstSel_located 0 0⟩

end CxRuntime
