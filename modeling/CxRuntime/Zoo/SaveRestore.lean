import CxRuntime.Lib.ContextPort
import CxRuntime.Zoo.Cxu

/-!
# Context save and restore

The system functions CF 1020 to CF 1023 of a stateful CXU are a port to the
context that the selector names.  The laws of the port rest on two facts: every
reachable status word is settled, so writing it back never starts a reset, and
CF 1020 and CF 1021 agree on where the word of an index lies.
-/

namespace CxRuntime

namespace Cxu

/-- The value a custom function returned, if it returned one. -/
def answered {cxu : Cxu} : Returned × cxu.State → Option (Word × cxu.State)
  | (some word, state) => some (word, state)
  | (none, _) => none

/-- `CX_READ_STATUS`, `CX_READ_STATE`, `CX_WRITE_STATE` and `CX_WRITE_STATUS`
with `MCX_SELECTOR` set to `sysSel`. -/
def port (cxu : Cxu) (sysSel : CxSelidx) : ContextPort cxu.State Word Word :=
  { announced := fun status => (getCxStateSize .uint status).toNat
    readStatus := fun state =>
      (cxu.call sysSel ⟨1023, 0, 0⟩ state).bind answered
    readWord := fun index state =>
      (cxu.call sysSel ⟨1021, BitVec.ofNat 32 index, 0⟩ state).bind answered
    writeWord := fun index value state =>
      (cxu.call sysSel ⟨1020, BitVec.ofNat 32 index, value⟩ state).map Prod.snd
    writeStatus := fun value state =>
      (cxu.call sysSel ⟨1022, value, 0⟩ state).map Prod.snd }

/-- CF 1021 reads and CF 1020 writes the word of an index. -/
structure WordAccess (cxu : Cxu) : Prop where
  readState : ∀ {sysSel context}, cxu.contextOf sysSel = some context →
    ∀ {index}, index < cxu.stateSize.toNat → ∀ state,
      cxu.call sysSel ⟨1021, BitVec.ofNat 32 index, 0⟩ state =
        some (some (cxu.word state.data context index), state)
  writeState : ∀ {sysSel context}, cxu.contextOf sysSel = some context →
    ∀ {index}, index < cxu.stateSize.toNat → ∀ value state,
      ∃ returned next,
        cxu.call sysSel ⟨1020, BitVec.ofNat 32 index, value⟩ state =
          some (returned, next) ∧
        next.cxuStctxStatus = state.cxuStctxStatus ∧
        ∀ other otherIndex, otherIndex < cxu.stateSize.toNat →
          cxu.word next.data other otherIndex =
            if other = context ∧ otherIndex = index then value
            else cxu.word state.data other otherIndex

/-- A save changes nothing; a restore after `calls` on the target brings back
the saved status word and words, and changes no other context. -/
def RestoresSaved (cxu : Cxu) (sourceSel targetSel : CxSelidx)
    (sourceContext targetContext : cxu.Context) (calls : List CfCall)
    (source target : cxu.State) : Prop :=
  ∃ saved middle answers final,
    (cxu.port sourceSel).save source = some (saved, source) ∧
    cxu.runOn targetSel target calls = some (middle, answers) ∧
    (cxu.port targetSel).restore saved middle = some final ∧
    final.cxuStctxStatus targetContext = source.cxuStctxStatus sourceContext ∧
    (∀ index, index < cxu.stateSize.toNat →
      cxu.word final.data targetContext index =
        cxu.word source.data sourceContext index) ∧
    ∀ other, other ≠ targetContext → cxu.SameContext other final middle

/-- The register value of a settled status word. -/
def RestingWord (cxu : Cxu) (value : Word) : Prop :=
  ∃ status, Settled cxu.stateSize status ∧ value = status.idx

variable {cxu : Cxu} {sysSel : CxSelidx} {context : cxu.Context}

theorem restingWord_iff {status : CxStctxs} :
    cxu.RestingWord status.idx ↔ Settled cxu.stateSize status := by
  constructor
  · intro rests
    obtain ⟨other, settled, equality⟩ := rests
    rwa [CxStctxs.idx_injective equality]
  · exact fun settled => ⟨status, settled, rfl⟩

private theorem RestingWord.announced {value : Word}
    (resting : cxu.RestingWord value) :
    (cxu.port sysSel).announced value = cxu.stateSize.toNat := by
  obtain ⟨_, ⟨_, _, rfl⟩, rfl⟩ := resting
  have narrow : cxu.stateSize.toNat < 2 ^ 32 :=
    cxu.stateSize.isLt.trans (by decide)
  simp only [port, getCxStateSize_eq, CxStctxs.ofIdx_idx, statusWord,
    BitVec.toNat_setWidth, Nat.mod_eq_of_lt narrow]

private theorem call_writeStatus_settled
    (located : cxu.contextOf sysSel = some context) {value : Word}
    (resting : cxu.RestingWord value) {state : cxu.State}
    (settled : Settled cxu.stateSize (state.cxuStctxStatus context)) :
    ∃ next, (cxu.port sysSel).writeStatus value state = some next ∧
      next = state.setStatus context (CxStctxs.ofIdx value) := by
  obtain ⟨_, ⟨cs, rest, rfl⟩, rfl⟩ := resting
  refine ⟨_, ?_, rfl⟩
  have decoded : (CxStctxs.ofIdx (statusWord cxu.stateSize cs).idx).dc =
      cs.dc := by
    rw [CxStctxs.ofIdx_idx]
    rfl
  simp only [port, call_writeStatus_resting located decoded rest 0 settled,
    CxStctxs.ofIdx_idx, Option.map_some]

/-- The port of a selector satisfies the laws for the context it names. -/
theorem port_laws (access : cxu.WordAccess)
    (located : cxu.contextOf sysSel = some context) :
    (cxu.port sysSel).Laws cxu.stateSize.toNat context
      (fun state => cxu.word state.data)
      (fun state other => (state.cxuStctxStatus other).idx) cxu.RestingWord where
  announced_eq := RestingWord.announced
  readStatus_eq state := by
    simp only [port, call_readStatus located, Option.bind_some, answered]
  readWord_eq inside state := by
    simp only [port, access.readState located inside, Option.bind_some, answered]
  writeWord_eq := by
    intro index inside value state
    obtain ⟨returned, next, called, statusEq, wordsEq⟩ :=
      access.writeState located inside value state
    refine ⟨next, by simp only [port, called, Option.map_some], ?_, ?_, ?_, ?_⟩
    · rw [wordsEq context index inside, if_pos ⟨rfl, rfl⟩]
    · intro other otherLt different
      rw [wordsEq context other otherLt, if_neg fun both => different both.2]
    · intro other different otherIndex otherLt
      rw [wordsEq other otherIndex otherLt, if_neg fun both => different both.1]
    · intro other
      rw [statusEq]
  writeStatus_eq := by
    intro value resting state stateRests
    obtain ⟨_, stored, rfl⟩ := call_writeStatus_settled located resting
      (restingWord_iff.mp stateRests)
    refine ⟨_, stored, ?_, ?_, fun _ _ _ => rfl⟩
    · rw [CxuStatics.setStatus_same, CxStctxs.idx_ofIdx]
    · intro other different
      rw [CxuStatics.setStatus_of_ne state different]

/-- A context saved from one settled state and restored into another, after any
admissible calls there, is the saved one; nothing else changes. -/
theorem restore_saved (access : cxu.WordAccess) {sourceSel targetSel : CxSelidx}
    {sourceContext targetContext : cxu.Context}
    (sourceLocated : cxu.contextOf sourceSel = some sourceContext)
    (targetLocated : cxu.contextOf targetSel = some targetContext)
    {source target : cxu.State} (sourceSettled : source.AllSettled cxu.stateSize)
    (targetSettled : target.AllSettled cxu.stateSize) {calls : List CfCall}
    (admissible : ∀ call ∈ calls, cxu.Admissible call) :
    cxu.RestoresSaved sourceSel targetSel sourceContext targetContext calls
      source target := by
  have sourceRests := restingWord_iff.mpr (sourceSettled sourceContext)
  have saved := (port_laws access sourceLocated).save_eq sourceRests
  obtain ⟨middle, answers, ran, middleSettled⟩ :=
    runOn_total targetLocated admissible targetSettled
  have complete : ((List.range cxu.stateSize.toNat).map
      (cxu.word source.data sourceContext)).length = cxu.stateSize.toNat := by
    simp
  obtain ⟨final, restored, statusEq, wordsEq, othersKept⟩ :=
    (port_laws access targetLocated).restore_eq sourceRests complete
      (restingWord_iff.mpr (middleSettled targetContext))
  refine ⟨_, middle, answers, final, saved, ran, restored,
    CxStctxs.idx_injective statusEq, ?_, ?_⟩
  · intro index below
    have inRange := wordsEq index below
    rw [List.getElem?_map, List.getElem?_range below] at inRange
    exact (Option.some.inj inRange).symm
  · intro other different
    exact ⟨CxStctxs.idx_injective (othersKept other different).1,
      (othersKept other different).2⟩

end Cxu

/-! ## The three units -/

section Accumulators

variable {κ : Type} [DecidableEq κ]

theorem Accumulator.setAcc_word (statics : AccStatics κ) (context other : κ)
    (value : Word) {index otherIndex : Nat} (indexLt : index < 1)
    (otherLt : otherIndex < 1) :
    (Accumulator.setAcc statics context value).data other =
      if other = context ∧ otherIndex = index then value
      else statics.data other := by
  have sameIndex : otherIndex = index := by omega
  by_cases same : other = context
  · rw [if_pos ⟨same, sameIndex⟩, same, Accumulator.setAcc_same]
  · rw [if_neg fun both => same both.1, Accumulator.setAcc_of_ne _ same]

end Accumulators

theorem mulacc_wordAccess : mulacc.WordAccess where
  readState := by
    intro _ _ located index inside state
    obtain rfl := Nat.lt_one_iff.mp inside
    exact Accumulator.readStateFunc_eq located 0 state
  writeState := by
    intro _ _ located index inside value state
    obtain rfl := Nat.lt_one_iff.mp inside
    exact ⟨_, _, Accumulator.writeStateFunc_eq located value state, rfl,
      fun _ _ => Accumulator.setAcc_word state _ _ value inside⟩

theorem nnAcc_wordAccess : nnAcc.WordAccess where
  readState := by
    intro _ _ located index inside state
    obtain rfl := Nat.lt_one_iff.mp inside
    exact Accumulator.readStateFunc_eq located 0 state
  writeState := by
    intro _ _ located index inside value state
    obtain rfl := Nat.lt_one_iff.mp inside
    exact ⟨_, _, Accumulator.writeStateFunc_eq located value state, rfl,
      fun _ _ => Accumulator.setAcc_word state _ _ value inside⟩

theorem vector_wordAccess : vector.WordAccess where
  readState := by
    intro _ _ located index inside state
    exact Vector.vectorReadStateFunc_eq located inside 0 state
  writeState := by
    intro _ context located index inside value state
    refine ⟨_, _, Vector.vectorWriteStateFunc_eq located inside value state, rfl,
      ?_⟩
    intro other otherIndex otherLt
    by_cases same : other = context ∧ otherIndex = index
    · obtain ⟨rfl, rfl⟩ := same
      rw [if_pos ⟨rfl, rfl⟩]
      exact Function.update_self ..
    · rw [if_neg same]
      exact Function.update_of_ne
        (fun equality => same (Vector.wordAddress_injective otherLt inside equality))
        ..

/-- Saving and restoring a context of any of the three units is lossless. -/
theorem save_restore_lossless :
    ∀ cxu ∈ [mulacc, nnAcc, vector],
      ∀ {source target : cxu.State}, cxu.Reachable source →
        cxu.Reachable target →
      ∀ {sourceSel targetSel sourceContext targetContext},
        cxu.contextOf sourceSel = some sourceContext →
        cxu.contextOf targetSel = some targetContext →
      ∀ {calls}, (∀ call ∈ calls, cxu.Admissible call) →
        cxu.RestoresSaved sourceSel targetSel sourceContext targetContext calls
          source target := by
  intro cxu member source target sourceReachable targetReachable _ _ _ _
    sourceLocated targetLocated calls admissible
  have access : cxu.WordAccess := by
    simp only [List.mem_cons, List.not_mem_nil, or_false] at member
    rcases member with rfl | rfl | rfl
    · exact mulacc_wordAccess
    · exact nnAcc_wordAccess
    · exact vector_wordAccess
  exact Cxu.restore_saved access sourceLocated targetLocated
    (Cxu.reachable_settled sourceReachable)
    (Cxu.reachable_settled targetReachable) admissible

theorem save_restore_lossless_first :
    vector.RestoresSaved Vector.firstSel Vector.firstSel Vector.firstContext
      Vector.firstContext [⟨1, 2, 0⟩, ⟨1020, 127, 5⟩] vector.initial
      vector.initial :=
  save_restore_lossless vector (by simp) .refl .refl Vector.firstSel_located
    Vector.firstSel_located (by
      intro call member
      simp only [List.mem_cons, List.not_mem_nil, or_false] at member
      rcases member with rfl | rfl
      · exact ⟨by decide, show Vector.RegOperand 2 by decide⟩
      · exact ⟨by decide, show Vector.IndexOperand 127 by decide⟩)

end CxRuntime
