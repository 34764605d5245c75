import CxRuntime.Lib.DirtyBit
import CxRuntime.Zoo.Cxu

/-!
# Dirty tracking

The data-clean field as the dirty bit of a context.  After a CF 1022 with
`CX_CLEAN`, a context that still shows `CX_CLEAN` should hold the words it held
then.  The user functions of the vector unit keep to this.  The accumulators
erase without marking: CF 1 of both leaves the field as it is, and CF 3 and CF 4
of mulacc even set it to `CX_CLEAN`.
-/

namespace CxRuntime

/-- The dirty bit of a status word. -/
def dirtyBit (status : CxStctxs) : Bool := decide (status.dc ≠ CxCs.clean.dc)

private theorem dirtyBit_statusWord_clean (stateSize : BitVec 16) :
    dirtyBit (statusWord stateSize .clean) = false :=
  decide_eq_false fun different => different rfl

namespace Cxu

variable (cxu : Cxu)

/-- CF 1023 shows `CX_CLEAN`. -/
def ShowsClean (sysSel : CxSelidx) (state : cxu.State) : Prop :=
  ∃ shown next, cxu.call sysSel ⟨1023, 0, 0⟩ state = some (some shown, next) ∧
    getCxDataClean .uint shown = CxCs.clean.word

/-- After `writeStatus` and then `calls`, a context that shows `CX_CLEAN` has the
words it had right after `writeStatus`. -/
def LosesNoUpdate (sysSel : CxSelidx) (context : cxu.Context)
    (writeStatus : CfCall) (calls : List CfCall) (state : cxu.State) : Prop :=
  ∃ returned marked final answers,
    cxu.call sysSel writeStatus state = some (returned, marked) ∧
    cxu.runOn sysSel marked calls = some (final, answers) ∧
    (cxu.ShowsClean sysSel final → cxu.SameWords context final marked)

variable {α : Type}

/-- A context as a value with a dirty bit. -/
def view (value : cxu.Data → α) (context : cxu.Context) (state : cxu.State) :
    DirtyBit.Tracked α :=
  { value := value state.data
    dirty := dirtyBit (state.cxuStctxStatus context) }

/-- Every user function succeeds on a context and has the given effect. -/
def Follows (sysSel : CxSelidx) (context : cxu.Context) (value : cxu.Data → α)
    (blank : α) (effect : CfCall → DirtyBit.Effect α) : Prop :=
  ∀ call, cxu.UserCall call → ∀ state, ∃ returned next,
    cxu.call sysSel call state = some (returned, next) ∧
    cxu.view value context next =
      (effect call).apply blank (cxu.view value context state)

variable {cxu} {sysSel : CxSelidx} {context : cxu.Context}
  {value : cxu.Data → α} {blank : α} {effect : CfCall → DirtyBit.Effect α}

theorem showsClean_iff (located : cxu.contextOf sysSel = some context)
    (state : cxu.State) :
    cxu.ShowsClean sysSel state ↔
      dirtyBit (state.cxuStctxStatus context) = false := by
  obtain ⟨cs, csEq⟩ := CxCs.dc_surjective (state.cxuStctxStatus context).dc
  have shows (shown : Word)
      (shownEq : shown = (state.cxuStctxStatus context).idx) :
      getCxDataClean .uint shown = CxCs.clean.word ↔ cs = .clean := by
    rw [shownEq, getCxDataClean_eq, CxStctxs.ofIdx_idx, ← csEq,
      CxCs.setWidth_dc_eq_word]
  have bit : dirtyBit (state.cxuStctxStatus context) = false ↔ cs = .clean := by
    simp only [dirtyBit, ← csEq, decide_eq_false_iff_not, ne_eq, not_not,
      CxCs.dc_injective.eq_iff]
  rw [bit]
  constructor
  · intro showsClean
    obtain ⟨shown, next, called, isClean⟩ := showsClean
    rw [call_readStatus located] at called
    cases called
    exact (shows _ rfl).mp isClean
  · intro isClean
    exact ⟨_, _, call_readStatus located 0 0 state, (shows _ rfl).mpr isClean⟩

/-- The run that `LosesNoUpdate` speaks about, seen as a value with its bit. -/
theorem exists_tracked_run (located : cxu.contextOf sysSel = some context)
    (follows : cxu.Follows sysSel context value blank effect)
    {state : cxu.State}
    (settled : Settled cxu.stateSize (state.cxuStctxStatus context))
    {word : Word} (decoded : (CxStctxs.ofIdx word).dc = CxCs.clean.dc) (b : Word)
    {calls : List CfCall} (userCalls : ∀ call ∈ calls, cxu.UserCall call) :
    ∃ returned marked final answers,
      cxu.call sysSel ⟨1022, word, b⟩ state = some (returned, marked) ∧
      marked.data = state.data ∧
      cxu.runOn sysSel marked calls = some (final, answers) ∧
      cxu.view value context final =
        DirtyBit.applyAll blank effect ⟨value state.data, false⟩ calls := by
  have marking := call_writeStatus_resting located decoded (by decide) b settled
  obtain ⟨final, answers, ran, _, viewFinal⟩ := Transition.run_view
    (fun state cfCall => (cxu.call sysSel cfCall state).map Prod.swap)
    (cxu.view value context)
    (fun tracked call => (effect call).apply blank tracked)
    (fun _ => True) cxu.UserCall
    (by
      intro state call _ userCall
      obtain ⟨returned, next, called, viewNext⟩ := follows call userCall state
      refine ⟨next, returned, ?_, trivial, viewNext⟩
      rw [called, Option.map_some, Prod.swap_prod_mk])
    userCalls trivial
  refine ⟨_, _, final, answers, marking, rfl, ran, ?_⟩
  rw [viewFinal, DirtyBit.applyAll]
  simp only [view, CxuStatics.setStatus_same, CxuStatics.setStatus_data,
    dirtyBit_statusWord_clean]

/-- A unit whose words are tracked by `value` loses no update exactly under the
condition of `DirtyBit.tracks_iff`. -/
theorem losesNoUpdate_iff (located : cxu.contextOf sysSel = some context)
    (follows : cxu.Follows sysSel context value blank effect)
    (sameWords_iff : ∀ left right,
      cxu.SameWords context left right ↔ value left.data = value right.data)
    {state : cxu.State}
    (settled : Settled cxu.stateSize (state.cxuStctxStatus context))
    {word : Word} (decoded : (CxStctxs.ofIdx word).dc = CxCs.clean.dc) (b : Word)
    {calls : List CfCall} (userCalls : ∀ call ∈ calls, cxu.UserCall call) :
    cxu.LosesNoUpdate sysSel context ⟨1022, word, b⟩ calls state ↔
      value state.data = blank ∨ (∀ call ∈ calls, ¬(effect call).Erases) ∨
        DirtyBit.Marked effect calls := by
  obtain ⟨returned, marked, final, answers, marking, dataKept, ran, viewFinal⟩ :=
    exists_tracked_run located follows settled decoded b userCalls
  have tracked : (cxu.ShowsClean sysSel final →
      cxu.SameWords context final marked) ↔
      ((cxu.view value context final).dirty = false →
        (cxu.view value context final).value = value state.data) := by
    rw [showsClean_iff located, sameWords_iff, dataKept]
    rfl
  rw [viewFinal, DirtyBit.tracks_iff] at tracked
  rw [← tracked]
  constructor
  · intro loses
    obtain ⟨_, _, _, _, otherMarking, otherRan, tracks⟩ := loses
    cases marking.symm.trans otherMarking
    cases ran.symm.trans otherRan
    exact tracks
  · exact fun tracks => ⟨_, _, _, _, marking, ran, tracks⟩

/-- A unit that never erases loses no update. -/
theorem losesNoUpdate_of_not_erases
    (located : cxu.contextOf sysSel = some context)
    (follows : cxu.Follows sysSel context value blank effect)
    (sameWords : ∀ left right, value left.data = value right.data →
      cxu.SameWords context left right)
    {state : cxu.State}
    (settled : Settled cxu.stateSize (state.cxuStctxStatus context))
    {word : Word} (decoded : (CxStctxs.ofIdx word).dc = CxCs.clean.dc) (b : Word)
    {calls : List CfCall} (userCalls : ∀ call ∈ calls, cxu.UserCall call)
    (untouched : ∀ call ∈ calls, ¬(effect call).Erases) :
    cxu.LosesNoUpdate sysSel context ⟨1022, word, b⟩ calls state := by
  obtain ⟨returned, marked, final, answers, marking, dataKept, ran, viewFinal⟩ :=
    exists_tracked_run located follows settled decoded b userCalls
  refine ⟨returned, marked, final, answers, marking, ran, ?_⟩
  intro shown
  have tracks := (DirtyBit.tracks_iff blank effect (value state.data) calls).mpr
    (Or.inr (Or.inl untouched))
  rw [← viewFinal] at tracks
  apply sameWords
  rw [dataKept]
  exact tracks ((showsClean_iff located final).mp shown)

end Cxu

/-! ## The accumulators -/

namespace Accumulator

variable {κ : Type} [DecidableEq κ] (statics : AccStatics κ) (context : κ)

/-- An accumulator with its dirty bit. -/
def view : DirtyBit.Tracked Word :=
  { value := statics.data context
    dirty := dirtyBit (statics.cxuStctxStatus context) }

theorem view_setAcc (value : Word) :
    view (setAcc statics context value) context =
      { view statics context with value := value } := by
  simp only [view, setAcc_same, setAcc_status]

theorem view_setDc (cs : CxCs) :
    view (statics.setDc context cs) context =
      { view statics context with dirty := decide (cs.dc ≠ CxCs.clean.dc) } := by
  simp only [view, CxuStatics.setDc_data, CxuStatics.setDc_same, dirtyBit]

theorem view_marked (value : Word) :
    view (setAcc (statics.setDc context .dirty) context value) context =
      ⟨value, true⟩ := by
  rw [view_setAcc, view_setDc]
  rfl

private theorem view_swept :
    view (setAcc (statics.setDc context .clean) context 0) context =
      ⟨0, false⟩ := by
  rw [view_setAcc, view_setDc]
  rfl

end Accumulator

def Mulacc.effect (call : CfCall) : DirtyBit.Effect Word :=
  match call.cfId with
  | 0 => .update fun acc => acc + call.a * call.b
  | 1 => .erase
  | 3 => .sweep
  | 4 => .sweep
  | _ => .keep

def NnAcc.effect (call : CfCall) : DirtyBit.Effect Word :=
  match call.cfId with
  | 0 => .update fun acc => acc + call.a * call.b
  | 1 => .erase
  | 2 => .update NnAcc.clamped
  | _ => .keep

private theorem mulacc_follows {sysSel : CxSelidx} {context : mulacc.Context}
    (located : mulacc.contextOf sysSel = some context) :
    mulacc.Follows sysSel context (fun acc => acc context) 0 Mulacc.effect := by
  rintro ⟨cfId, a, b⟩ ⟨userId, _⟩ state
  have userCases :
      cfId = 0 ∨ cfId = 1 ∨ cfId = 2 ∨ cfId = 3 ∨ cfId = 4 := by
    change cfId < 5 at userId
    omega
  rcases userCases with rfl | rfl | rfl | rfl | rfl
  · exact ⟨_, _, Accumulator.accumulateFunc_eq located a b state,
      Accumulator.view_marked state context _⟩
  · exact ⟨_, _, Accumulator.resetFunc_eq located a b state,
      Accumulator.view_setAcc state context 0⟩
  · exact ⟨_, _, rfl, rfl⟩
  · exact ⟨_, _, Mulacc.zeroMacFunc_eq located a b state,
      Accumulator.view_swept state context⟩
  · exact ⟨_, _, Mulacc.readAccFunc_eq located a b state,
      Accumulator.view_swept state context⟩

private theorem nnAcc_follows {sysSel : CxSelidx} {context : nnAcc.Context}
    (located : nnAcc.contextOf sysSel = some context) :
    nnAcc.Follows sysSel context (fun acc => acc context) 0 NnAcc.effect := by
  rintro ⟨cfId, a, b⟩ ⟨userId, _⟩ state
  have userCases : cfId = 0 ∨ cfId = 1 ∨ cfId = 2 := by
    change cfId < 3 at userId
    omega
  rcases userCases with rfl | rfl | rfl
  · exact ⟨_, _, Accumulator.accumulateFunc_eq located a b state,
      Accumulator.view_marked state context _⟩
  · exact ⟨_, _, Accumulator.resetFunc_eq located a b state,
      Accumulator.view_setAcc state context 0⟩
  · exact ⟨_, _, NnAcc.reluFunc_eq located a b state,
      Accumulator.view_marked state context _⟩

/-! ## The vector unit -/

def Vector.effect (context : Vector.Context) (call : CfCall) :
    DirtyBit.Effect (Nat → Word) :=
  let target := Vector.regBase context call.a.toInt.toNat
  let source := Vector.regBase context call.b.toInt.toNat
  match call.cfId with
  | 0 => .update fun regs =>
      Cells.overwrite regs target Vector.cxVectorVl fun lane =>
        regs (target + lane) + regs (source + lane)
  | 1 => .update fun regs =>
      Cells.overwrite regs target Vector.cxVectorVl fun lane =>
        BitVec.ofNat 32 lane
  | 2 => .update fun regs =>
      Cells.overwrite regs target Vector.cxVectorVl fun _ => 2
  | _ => .keep

private theorem Vector.effect_not_erases (context : Vector.Context)
    (call : CfCall) :
    ¬(Vector.effect context call).Erases := by
  simp only [Vector.effect]
  split <;> exact id

theorem Vector.view_overwritten (context : vector.Context)
    (state : vector.State) (regs : Nat → Word) :
    vector.view id context { state.setDc context .dirty with data := regs } =
      ⟨regs, true⟩ := by
  simp only [Cxu.view, CxuStatics.setDc_same, dirtyBit, id]
  rfl

/-- CF 1 and CF 2 overwrite a register and mark the context. -/
theorem Vector.fillFunc_view {sysSel : CxSelidx} {context : vector.Context}
    (located : vector.contextOf sysSel = some context) {a : Word}
    (valid : Vector.RegOperand a) (value : Nat → Word) (b : Word)
    (state : vector.State) :
    ∃ returned next,
      Vector.TracedFunc.untraced (Vector.fillFunc value) a b sysSel state =
        some (returned, next) ∧
      vector.view id context next =
        ⟨Cells.overwrite state.data (Vector.regBase context a.toInt.toNat)
          Vector.cxVectorVl value, true⟩ := by
  obtain ⟨target, targetLt, targetEq⟩ := valid.exists_reg
  obtain ⟨outcome, ran, _, staticsEq, _⟩ :=
    Vector.fillFunc_eq located targetLt targetEq value b state
  refine ⟨_, _, Vector.TracedFunc.untraced_eq ran, ?_⟩
  rw [staticsEq, targetEq, Int.toNat_natCast]
  exact Vector.view_overwritten context state _

private theorem vector_follows {sysSel : CxSelidx} {context : vector.Context}
    (located : vector.contextOf sysSel = some context) :
    vector.Follows sysSel context id (fun _ => 0) (Vector.effect context) := by
  rintro ⟨cfId, a, b⟩ ⟨userId, admitted⟩ state
  have userCases : cfId = 0 ∨ cfId = 1 ∨ cfId = 2 ∨ cfId = 3 := by
    change cfId < 4 at userId
    omega
  rcases userCases with rfl | rfl | rfl | rfl
  · obtain ⟨targetValid, sourceValid⟩ :
        Vector.RegOperand a ∧ Vector.RegOperand b := admitted
    obtain ⟨target, targetLt, targetEq⟩ := targetValid.exists_reg
    obtain ⟨source, sourceLt, sourceEq⟩ := sourceValid.exists_reg
    obtain ⟨outcome, ran, _, staticsEq, _⟩ :=
      Vector.addFunc_eq located targetLt targetEq sourceLt sourceEq state
    refine ⟨_, _, Vector.TracedFunc.untraced_eq ran, ?_⟩
    rw [staticsEq]
    refine (Vector.view_overwritten context state _).trans ?_
    simp only [Vector.effect, targetEq, sourceEq, Int.toNat_natCast]
    rfl
  · exact Vector.fillFunc_view located admitted (fun i => BitVec.ofNat 32 i) b
      state
  · exact Vector.fillFunc_view located admitted (fun _ => 2) b state
  · obtain ⟨outcome, ran, _, staticsEq, _⟩ :=
      Vector.resetFunc_eq located a b state
    refine ⟨_, _, Vector.TracedFunc.untraced_eq ran, ?_⟩
    rw [staticsEq]
    rfl

/-! ## When no update is lost -/

/-- A call that sets the dirty mark, with no later call that clears it. -/
def LeftDirty (marking sweeping : List Nat) (calls : List CfCall) : Prop :=
  ∃ before call after, calls = before ++ call :: after ∧
    call.cfId ∈ marking ∧ ∀ later ∈ after, later.cfId ∉ sweeping

private theorem Mulacc.effect_kinds (call : CfCall) :
    ((Mulacc.effect call).Updates ↔ call.cfId ∈ [0]) ∧
      ((Mulacc.effect call).Erases ↔ call.cfId ∈ [1, 3, 4]) ∧
      ((Mulacc.effect call).Sweeps ↔ call.cfId ∈ [3, 4]) := by
  simp only [Mulacc.effect]
  split <;> simp_all [DirtyBit.Effect.Updates, DirtyBit.Effect.Erases,
    DirtyBit.Effect.Sweeps]

private theorem NnAcc.effect_kinds (call : CfCall) :
    ((NnAcc.effect call).Updates ↔ call.cfId ∈ [0, 2]) ∧
      ((NnAcc.effect call).Erases ↔ call.cfId ∈ [1]) ∧
      ((NnAcc.effect call).Sweeps ↔ call.cfId ∈ []) := by
  simp only [NnAcc.effect]
  split <;> simp_all [DirtyBit.Effect.Updates, DirtyBit.Effect.Erases,
    DirtyBit.Effect.Sweeps]

theorem marked_iff_leftDirty {α : Type} {effect : CfCall → DirtyBit.Effect α}
    {marking sweeping : List Nat}
    (updates : ∀ call, (effect call).Updates ↔ call.cfId ∈ marking)
    (sweeps : ∀ call, (effect call).Sweeps ↔ call.cfId ∈ sweeping)
    (calls : List CfCall) :
    DirtyBit.Marked effect calls ↔ LeftDirty marking sweeping calls := by
  simp only [DirtyBit.Marked, LeftDirty, updates, sweeps]

theorem mulacc_losesNoUpdate_iff {state : mulacc.State}
    (reachable : mulacc.Reachable state) {sysSel : CxSelidx}
    {context : mulacc.Context}
    (located : mulacc.contextOf sysSel = some context) {word : Word}
    (decoded : (CxStctxs.ofIdx word).dc = CxCs.clean.dc) (b : Word)
    {calls : List CfCall} (userCalls : ∀ call ∈ calls, mulacc.UserCall call) :
    mulacc.LosesNoUpdate sysSel context ⟨1022, word, b⟩ calls state ↔
      state.data context = (0 : Word) ∨
        (∀ call ∈ calls, call.cfId ∉ [1, 3, 4]) ∨
        LeftDirty [0] [3, 4] calls := by
  rw [Cxu.losesNoUpdate_iff located (mulacc_follows located)
    (fun left right => ⟨fun same => same 0 (by decide), fun same _ _ => same⟩)
    (Cxu.reachable_settled reachable context) decoded b userCalls,
    marked_iff_leftDirty (fun call => (Mulacc.effect_kinds call).1)
      (fun call => (Mulacc.effect_kinds call).2.2)]
  simp only [(Mulacc.effect_kinds _).2.1]

theorem nnAcc_losesNoUpdate_iff {state : nnAcc.State}
    (reachable : nnAcc.Reachable state) {sysSel : CxSelidx}
    {context : nnAcc.Context}
    (located : nnAcc.contextOf sysSel = some context) {word : Word}
    (decoded : (CxStctxs.ofIdx word).dc = CxCs.clean.dc) (b : Word)
    {calls : List CfCall} (userCalls : ∀ call ∈ calls, nnAcc.UserCall call) :
    nnAcc.LosesNoUpdate sysSel context ⟨1022, word, b⟩ calls state ↔
      state.data context = (0 : Word) ∨ (∀ call ∈ calls, call.cfId ∉ [1]) ∨
        LeftDirty [0, 2] [] calls := by
  rw [Cxu.losesNoUpdate_iff located (nnAcc_follows located)
    (fun left right => ⟨fun same => same 0 (by decide), fun same _ _ => same⟩)
    (Cxu.reachable_settled reachable context) decoded b userCalls,
    marked_iff_leftDirty (fun call => (NnAcc.effect_kinds call).1)
      (fun call => (NnAcc.effect_kinds call).2.2)]
  simp only [(NnAcc.effect_kinds _).2.1]

private theorem vector_losesNoUpdate {state : vector.State}
    (reachable : vector.Reachable state) {sysSel : CxSelidx}
    {context : vector.Context}
    (located : vector.contextOf sysSel = some context) {word : Word}
    (decoded : (CxStctxs.ofIdx word).dc = CxCs.clean.dc) (b : Word)
    {calls : List CfCall} (userCalls : ∀ call ∈ calls, vector.UserCall call) :
    vector.LosesNoUpdate sysSel context ⟨1022, word, b⟩ calls state :=
  Cxu.losesNoUpdate_of_not_erases located (vector_follows located)
    (fun _ _ same index _ =>
      congrArg (fun regs => Vector.wordOf regs context index) same)
    (Cxu.reachable_settled reachable context) decoded b userCalls
    (fun call _ => Vector.effect_not_erases context call)

/-- An accumulator loses an update exactly when a nonzero accumulator is erased
and the run does not leave the context dirty; the vector unit loses none. -/
theorem losesNoUpdate_iff_no_silent_erasure {word : Word}
    (decoded : (CxStctxs.ofIdx word).dc = CxCs.clean.dc) (b : Word) :
    (∀ {state}, mulacc.Reachable state → ∀ {sysSel context},
      mulacc.contextOf sysSel = some context → ∀ {calls},
      (∀ call ∈ calls, mulacc.UserCall call) →
        (mulacc.LosesNoUpdate sysSel context ⟨1022, word, b⟩ calls state ↔
          mulacc.word state.data context 0 = 0 ∨
            (∀ call ∈ calls, call.cfId ∉ [1, 3, 4]) ∨
            LeftDirty [0] [3, 4] calls)) ∧
    (∀ {state}, nnAcc.Reachable state → ∀ {sysSel context},
      nnAcc.contextOf sysSel = some context → ∀ {calls},
      (∀ call ∈ calls, nnAcc.UserCall call) →
        (nnAcc.LosesNoUpdate sysSel context ⟨1022, word, b⟩ calls state ↔
          nnAcc.word state.data context 0 = 0 ∨
            (∀ call ∈ calls, call.cfId ∉ [1]) ∨ LeftDirty [0, 2] [] calls)) ∧
    ∀ {state}, vector.Reachable state → ∀ {sysSel context},
      vector.contextOf sysSel = some context → ∀ {calls},
      (∀ call ∈ calls, vector.UserCall call) →
        vector.LosesNoUpdate sysSel context ⟨1022, word, b⟩ calls state :=
  ⟨fun reachable _ _ located _ userCalls =>
      mulacc_losesNoUpdate_iff reachable located decoded b userCalls,
    fun reachable _ _ located _ userCalls =>
      nnAcc_losesNoUpdate_iff reachable located decoded b userCalls,
    fun reachable _ _ located _ userCalls =>
      vector_losesNoUpdate reachable located decoded b userCalls⟩

theorem losesNoUpdate_iff_no_silent_erasure_first :
    (mulacc.LosesNoUpdate Mulacc.firstSel Mulacc.firstContext
        ⟨1022, 0x08000000, 0⟩ [⟨0, 2, 3⟩] mulacc.initial ↔
      mulacc.word mulacc.initial.data Mulacc.firstContext 0 = 0 ∨
        (∀ call ∈ [⟨0, 2, 3⟩], CfCall.cfId call ∉ [1, 3, 4]) ∨
        LeftDirty [0] [3, 4] [⟨0, 2, 3⟩]) ∧
      vector.LosesNoUpdate Vector.firstSel Vector.firstContext
        ⟨1022, 0x08000000, 0⟩ [⟨0, 2, 3⟩] vector.initial :=
  have decoded : (CxStctxs.ofIdx 0x08000000).dc = CxCs.clean.dc := by decide
  ⟨(losesNoUpdate_iff_no_silent_erasure decoded 0).1 .refl
      Mulacc.firstSel_located (by
        intro call member
        rw [List.mem_singleton.mp member]
        exact ⟨by decide, trivial⟩),
    (losesNoUpdate_iff_no_silent_erasure decoded 0).2.2 .refl
      Vector.firstSel_located (by
        intro call member
        rw [List.mem_singleton.mp member]
        exact ⟨by decide, show Vector.RegOperand 2 ∧ Vector.RegOperand 3 by decide⟩)⟩

/-- An accumulator of 1 is reset while the context keeps showing `CX_CLEAN`. -/
theorem reset_loses_update :
    ∃ state, mulacc.Reachable state ∧
      mulacc.call Mulacc.firstSel ⟨0, 1, 1⟩ mulacc.initial =
        some (some 1, state) ∧
      mulacc.contextOf Mulacc.firstSel = some Mulacc.firstContext ∧
      (CxStctxs.ofIdx 0x08000000).dc = CxCs.clean.dc ∧
      mulacc.UserCall ⟨1, 0, 0⟩ ∧
      ¬mulacc.LosesNoUpdate Mulacc.firstSel Mulacc.firstContext
        ⟨1022, 0x08000000, 0⟩ [⟨1, 0, 0⟩] state := by
  have located : mulacc.contextOf Mulacc.firstSel = some Mulacc.firstContext :=
    rfl
  have decoded : (CxStctxs.ofIdx 0x08000000).dc = CxCs.clean.dc := by decide
  have userCall : mulacc.UserCall ⟨1, 0, 0⟩ := ⟨by decide, trivial⟩
  have called : mulacc.call Mulacc.firstSel ⟨0, 1, 1⟩ mulacc.initial = _ :=
    Accumulator.accumulateFunc_eq located 1 1 Mulacc.initCxFuncMulacc
  have reachable : mulacc.Reachable _ := .single ⟨_, _, _, called⟩
  refine ⟨_, reachable, called, located, decoded, userCall, ?_⟩
  rw [mulacc_losesNoUpdate_iff reachable located decoded 0 (by
    intro call member
    rwa [List.mem_singleton.mp member])]
  rintro (blank | untouched | ⟨before, call, after, split, marking, _⟩)
  · have one := Accumulator.setAcc_same (κ := Mulacc.Context)
      (Mulacc.initCxFuncMulacc.setDc Mulacc.firstContext .dirty)
      Mulacc.firstContext (0 + 1 * 1)
    exact absurd (one.symm.trans blank) (by decide)
  · exact untouched ⟨1, 0, 0⟩ List.mem_cons_self (by decide)
  · have member : call ∈ [(⟨1, 0, 0⟩ : CfCall)] := by
      rw [split]
      exact List.mem_append_right _ List.mem_cons_self
    rw [List.mem_singleton.mp member] at marking
    exact absurd marking (by decide)

end CxRuntime
