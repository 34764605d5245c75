import CxRuntime.Runtime.Reachability
import CxRuntime.Zoo.Cxu

/-!
# The runtime with the mulacc CXU

`cx_reg` applies the function `cx_funcs[cx_id][cf_id]` of the selected CX.  Slot
2 is mulacc; the other CXUs and the macros that no header defines are
parameters.
-/

namespace CxRuntime

variable {ρ : Type}

def mulaccPlatform (others : Platform ρ) : Platform (mulacc.State × ρ) :=
  { cxReg := fun cxSel cfId rs1 rs2 cxus =>
      if (getCxId .int cxSel).toNat = 2 then
        (mulacc.call (.ofIdx cxSel) ⟨cfId, rs1, rs2⟩ cxus.1).map
          fun answer => (answer.1, (answer.2, cxus.2))
      else
        (others.cxReg cxSel cfId rs1 rs2 cxus.2).map
          fun answer => (answer.1, (cxus.1, answer.2))
    cxInitial := others.cxInitial
    getCxInitializer := others.getCxInitializer }

/-- No CXU but mulacc, hardware initialisation only. -/
def bareOthers : Platform Unit :=
  { cxReg := fun _ _ _ _ _ => none
    cxInitial := CxCs.preclean.word
    getCxInitializer := fun _ => 0 }

/-- The slot that `cx_init` gives to mulacc. -/
def mulaccId : Fin numCx := 2

def mulaccContext (stateId : Fin Mulacc.cxMulaccNumStates) : mulacc.Context :=
  ((⟨0, Nat.one_pos⟩ : Fin Mulacc.cxNumMulaccInstances), stateId)

variable {others : Platform ρ} {machine next : Machine (mulacc.State × ρ)}
  {cxus after : mulacc.State × ρ} {returned : Returned}
  (stateId : Fin Mulacc.cxMulaccNumStates)

theorem mulacc_located :
    mulacc.contextOf (.ofIdx (slotSel mulaccId stateId)) =
      some (mulaccContext stateId) := by
  have small : stateId.val < 256 := stateId.isLt.trans (by decide)
  refine locate_eq ?_ (stateId_slotSel mulaccId small)
  rw [cxId_slotSel]
  rfl

theorem mulaccPlatform_slotSel (cfId : Nat) (rs1 rs2 : Word) :
    (mulaccPlatform others).cxReg (slotSel mulaccId stateId) cfId rs1 rs2 cxus =
      (mulacc.call (.ofIdx (slotSel mulaccId stateId)) ⟨cfId, rs1, rs2⟩
        cxus.1).map fun answer => (answer.1, (answer.2, cxus.2)) :=
  if_pos (getCxId_slotSel .int mulaccId stateId)

/-! ## The status words of mulacc -/

/-- All status words of mulacc are settled. -/
abbrev MulaccSettled (cxus : mulacc.State × ρ) : Prop :=
  cxus.1.AllSettled mulacc.stateSize

theorem mulaccPlatform_settled {cxSel : Word} {cfId : Nat} {rs1 rs2 : Word}
    (settled : MulaccSettled cxus)
    (answered : (mulaccPlatform others).cxReg cxSel cfId rs1 rs2 cxus =
      some (returned, after)) : MulaccSettled after := by
  dsimp only [mulaccPlatform] at answered
  split at answered
  · obtain ⟨⟨_, statics⟩, called, equality⟩ :=
      Option.map_eq_some_iff.mp answered
    cases equality
    exact Cxu.call_settled settled called
  · obtain ⟨_, _, equality⟩ := Option.map_eq_some_iff.mp answered
    cases equality
    exact settled

theorem mulacc_settled_of_reachable {config : CxConfig} {rest : ρ}
    (reachable : RuntimeReachable (mulaccPlatform others) config
      (mulacc.initial, rest) machine) :
    MulaccSettled machine.cxus :=
  cxus_of_reachable MulaccSettled mulacc.initial_settled mulaccPlatform_settled
    reachable

theorem mulacc_answersAt :
    (mulaccPlatform others).AnswersAt (slotSel mulaccId stateId) := by
  have total : ∀ {cfId}, cfId < maxCfIds → ∀ rs1 rs2 cxus, ∃ answer,
      (mulaccPlatform others).cxReg (slotSel mulaccId stateId) cfId rs1 rs2
        cxus = some answer := by
    intro cfId below rs1 rs2 cxus
    have admissible : mulacc.Admissible ⟨cfId, rs1, rs2⟩ := ⟨below, trivial⟩
    obtain ⟨returned, statics, called⟩ :=
      Cxu.call_total (mulacc_located stateId) admissible cxus.1
    rw [mulaccPlatform_slotSel, called]
    exact ⟨_, rfl⟩
  refine ⟨?_, fun status => total (by decide) status 0,
    fun index value => total (by decide) index value⟩
  intro cxus
  rw [mulaccPlatform_slotSel, Cxu.call_readStatus (mulacc_located stateId)]
  exact ⟨_, _, rfl⟩

/-- The status word read through a mulacc selector. -/
theorem mulacc_cxReadStatus {stateId : Fin Mulacc.cxMulaccNumStates}
    (selected : machine.mcxSelector = slotSel mulaccId stateId) {status : Word}
    (read : machine.cxReadStatus (mulaccPlatform others) =
      some (status, next)) :
    status = (machine.cxus.1.cxuStctxStatus (mulaccContext stateId)).idx := by
  have answered := Machine.cxReg_eq_some (Machine.cxReadStatus_eq_some read)
  rw [selected, mulaccPlatform_slotSel,
    Cxu.call_readStatus (mulacc_located stateId)] at answered
  exact (Option.some.inj (Prod.mk.inj (Option.some.inj answered)).1).symm

theorem mulacc_stateSize {status : CxStctxs}
    (settled : Settled mulacc.stateSize status) :
    getCxStateSize .uint status.idx = 1 := by
  obtain ⟨cs, _, rfl⟩ := settled
  rw [getCxStateSize_eq, CxStctxs.ofIdx_idx]
  rfl

/-- A status write through a mulacc selector that does not start a reset. -/
theorem mulacc_cxWriteStatus {stateId : Fin Mulacc.cxMulaccNumStates}
    (selected : machine.mcxSelector = slotSel mulaccId stateId) {value : Word}
    {cs : CxCs} (decoded : (CxStctxs.ofIdx value).dc = cs.dc)
    (resting : cs ≠ .preclean)
    (settled : MulaccSettled machine.cxus)
    (written : machine.cxWriteStatus (mulaccPlatform others) value =
      some next) :
    next.cxus.1 = machine.cxus.1.setStatus (mulaccContext stateId)
      (statusWord mulacc.stateSize cs) := by
  obtain ⟨⟨_, _⟩, executed, rfl⟩ := Option.map_eq_some_iff.mp written
  have answered := Machine.cxReg_eq_some executed
  rw [selected, mulaccPlatform_slotSel, Cxu.call_writeStatus_resting
    (mulacc_located stateId) decoded resting 0 (settled _)] at answered
  obtain ⟨-, equality⟩ := Prod.mk.inj (Option.some.inj answered)
  exact (congrArg Prod.fst equality).symm

/-- The lookup of the guid of mulacc. -/
theorem findCxId_mulacc (has : machine.cxMap.HasConfig sourceConfig) :
    findCxId machine.cxMap Mulacc.cxGuidMulacc = some mulaccId := by
  have registered : sourceConfig.cxGuid mulaccId ≠ 0 := by decide
  exact has.findCxId_eq registered

theorem eq_mulaccId_of_found (has : machine.cxMap.HasConfig sourceConfig)
    {cxId : Fin numCx}
    (found : findCxId machine.cxMap Mulacc.cxGuidMulacc = some cxId) :
    cxId = mulaccId :=
  Option.some.inj (found.symm.trans (findCxId_mulacc has))

theorem mulacc_stateful (has : machine.cxMap.HasConfig sourceConfig) :
    (machine.cxMap mulaccId).numStates ≠ 0 := by
  rw [(has mulaccId).2]
  decide

theorem mulacc_state_lt (has : machine.cxMap.HasConfig sourceConfig)
    {free : Nat} (isFree : (machine.cxMap mulaccId).firstFree = some free) :
    free < Mulacc.cxMulaccNumStates := by
  have below := CxEntry.firstFree_lt isFree
  rwa [(has mulaccId).2] at below

/-- The states of mulacc have one word. -/
theorem mulacc_statusFits (has : machine.cxMap.HasConfig sourceConfig)
    (settled : MulaccSettled machine.cxus) :
    StatusFits (mulaccPlatform others) Mulacc.cxGuidMulacc machine := by
  intro cxId free status read found isFree isRead
  obtain rfl := eq_mulaccId_of_found has found
  have below := mulacc_state_lt has isFree
  have selected : (machine.cxSel (slotSel mulaccId free)).mcxSelector =
      slotSel mulaccId (⟨free, below⟩ : Fin Mulacc.cxMulaccNumStates) := rfl
  rw [mulacc_cxReadStatus selected isRead, Machine.cxSel_cxus,
    mulacc_stateSize (settled _)]
  decide

end CxRuntime
