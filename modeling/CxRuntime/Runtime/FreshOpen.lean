import CxRuntime.Runtime.MulaccPlatform

/-!
# Freshness of an opened mulacc context

`cx_open` writes `CX_INITIAL` and `CX_DIRTY` as plain enumerators, while CF 1022
takes the data-clean value from bits 26 and 27.  Both words decode to `CX_OFF`:
no write of the runtime starts the reset of the CXU, and every opened context
ends with a status word that is off.
-/

namespace CxRuntime

variable {ρ : Type}

/-- Reading the context gives accumulator 0 and the status word of a context
that was just initialised. -/
def Fresh {σ : Type} (platform : Platform σ) (cxSel : Word)
    (machine : Machine σ) : Prop :=
  (∃ next, (machine.cxSel cxSel).cxReg platform 1021 0 0 =
    some (some 0, next)) ∧
  ∃ status next,
    (machine.cxSel cxSel).cxReadStatus platform = some (status, next) ∧
    (CxStctxs.ofIdx status).dc = CxCs.dirty.dc ∧
    (CxStctxs.ofIdx status).stateSize = 1 ∧
    (CxStctxs.ofIdx status).version = 1 ∧ (CxStctxs.ofIdx status).r = 0

/-- Whenever an open of mulacc returns a selector, its context is fresh. -/
def OpensFresh {σ : Type} (platform : Platform σ)
    (cxShare userCxSel : Word) (machine : Machine σ) : Prop :=
  ∀ {result next},
    cxOpen platform Mulacc.cxGuidMulacc cxShare userCxSel machine =
      some (result, next) →
    result ≠ -1 → Fresh platform result next

def AllTaken (entry : CxEntry) : Prop :=
  ∀ stateId : Nat, entry.availStateIds[stateId]? ≠ some cxAvailState

variable {others : Platform ρ} {machine next : Machine (mulacc.State × ρ)}
  {stateId : Fin Mulacc.cxMulaccNumStates}

/-- An enumerator written as a status word switches the context off. -/
theorem enumerator_decodes_off :
    ∀ cs ∈ [CxCs.preclean, CxCs.dirty],
      (CxStctxs.ofIdx cs.word).dc = CxCs.off.dc := by
  decide

private theorem cxWriteStatus_off (selected : machine.mcxSelector =
      slotSel mulaccId stateId)
    (settled : MulaccSettled machine.cxus) {cs : CxCs}
    (enumerator : cs ∈ [CxCs.preclean, CxCs.dirty])
    (written : machine.cxWriteStatus (mulaccPlatform others) cs.word =
      some next) :
    next.cxus.1.cxuStctxStatus (mulaccContext stateId) =
      statusWord mulacc.stateSize .off := by
  rw [mulacc_cxWriteStatus selected (enumerator_decodes_off cs enumerator)
    (by decide) settled written, CxuStatics.setStatus_same]

/-- Both ways through the initialisation end with a status write. -/
theorem initState_off (initial : others.cxInitial = CxCs.preclean.word)
    (selected : machine.mcxSelector = slotSel mulaccId stateId)
    (settled : MulaccSettled machine.cxus)
    {status stateSize : Word}
    (initialised : machine.initState (mulaccPlatform others) status stateSize =
      some next) :
    next.cxus.1.cxuStctxStatus (mulaccContext stateId) =
      statusWord mulacc.stateSize .off := by
  obtain ⟨marked, written, rest⟩ := Option.bind_eq_some_iff.mp initialised
  have firstWrite : machine.cxWriteStatus (mulaccPlatform others)
      CxCs.preclean.word = some marked := initial ▸ written
  split at rest
  · obtain ⟨cleared, looped, last⟩ := Option.bind_eq_some_iff.mp rest
    have ran : Machine.Ran (mulaccPlatform others) machine cleared :=
      Loop.forUpTo_partial
        (fun _ current => Machine.Ran (mulaccPlatform others) machine current)
        (Machine.cxWriteStatus_ran firstWrite) _
        (fun _ _ _ _ before stepped =>
          before.trans (Machine.cxWriteState_ran stepped)) looped
    have clearedSettled : MulaccSettled cleared.cxus :=
      ran.invariant MulaccSettled mulaccPlatform_settled settled
    exact cxWriteStatus_off (ran.mcxSelector_eq.trans selected) clearedSettled
      (by decide) last
  · cases rest
    exact cxWriteStatus_off selected settled (by decide) firstWrite

private theorem not_fresh_of_off
    (off : machine.cxus.1.cxuStctxStatus (mulaccContext stateId) =
      statusWord mulacc.stateSize .off) :
    ¬Fresh (mulaccPlatform others) (slotSel mulaccId stateId) machine := by
  intro fresh
  obtain ⟨_, status, after, read, dirty, _⟩ := fresh
  have selected : (machine.cxSel (slotSel mulaccId stateId)).mcxSelector =
      slotSel mulaccId stateId := rfl
  rw [mulacc_cxReadStatus selected read, Machine.cxSel_cxus, off,
    CxStctxs.ofIdx_idx] at dirty
  exact absurd (CxCs.dc_injective dirty) (by decide)

private theorem not_fresh_of_opened
    (initial : others.cxInitial = CxCs.preclean.word)
    (has : machine.cxMap.HasConfig sourceConfig)
    (settled : MulaccSettled machine.cxus) {result : Word}
    (opens : Opens (mulaccPlatform others) Mulacc.cxGuidMulacc machine result
      next) (succeeded : result ≠ -1) :
    ¬Fresh (mulaccPlatform others) result next := by
  cases opens with
  | unknown => exact absurd rfl succeeded
  | stateless found stateless =>
      obtain rfl := eq_mulaccId_of_found has found
      exact absurd stateless (mulacc_stateful has)
  | exhausted => exact absurd rfl succeeded
  | oversized => exact absurd rfl succeeded
  | @opened _ free _ read taken ready found isFree isRead _ isTaken isReady =>
      obtain rfl := eq_mulaccId_of_found has found
      obtain ⟨stateId, rfl⟩ :
          ∃ stateId : Fin Mulacc.cxMulaccNumStates, free = stateId.val :=
        ⟨⟨free, mulacc_state_lt has isFree⟩, rfl⟩
      have ran := Machine.cxReadStatus_ran isRead
      have readSettled : MulaccSettled read.cxus :=
        ran.invariant MulaccSettled mulaccPlatform_settled settled
      obtain ⟨entry, _, rfl⟩ := Option.map_eq_some_iff.mp isTaken
      have off : ready.cxus.1.cxuStctxStatus (mulaccContext stateId) =
          statusWord mulacc.stateSize .off := by
        refine initState_off initial ?_ ?_ isReady
        · exact ran.mcxSelector_eq
        · exact readSettled
      exact not_fresh_of_off off

theorem not_opensFresh_of_free
    (initial : others.cxInitial = CxCs.preclean.word)
    (has : machine.cxMap.HasConfig sourceConfig)
    (settled : MulaccSettled machine.cxus)
    {free : Nat} (isFree : (machine.cxMap mulaccId).firstFree = some free)
    (cxShare userCxSel : Word) :
    ¬OpensFresh (mulaccPlatform others) cxShare userCxSel machine := by
  intro fresh
  have answers : (mulaccPlatform others).AnswersAt (slotSel mulaccId free) :=
    mulacc_answersAt ⟨free, mulacc_state_lt has isFree⟩
  obtain ⟨result, next, completed⟩ :=
    cxOpen_total (findCxId_mulacc has) isFree answers cxShare userCxSel
  have opens := cxOpen_iff.mp completed
  have resultEq := opens.result_of_free (mulacc_statusFits has settled)
    (findCxId_mulacc has) isFree
  have succeeded : result ≠ -1 := by
    rw [resultEq]
    exact slotSel_ne_neg_one mulaccId free
  exact not_fresh_of_opened initial has settled opens succeeded
    (fresh completed succeeded)

/-- No open of mulacc is fresh: the promise only holds where there is nothing to
open. -/
theorem opensFresh_iff_all_taken
    (initial : others.cxInitial = CxCs.preclean.word) {rest : ρ}
    (reachable : RuntimeReachable (mulaccPlatform others) sourceConfig
      (mulacc.initial, rest) machine) (cxShare userCxSel : Word) :
    OpensFresh (mulaccPlatform others) cxShare userCxSel machine ↔
      AllTaken (machine.cxMap mulaccId) := by
  have has := hasConfig_of_reachable reachable
  have settled := mulacc_settled_of_reachable reachable
  cases free : (machine.cxMap mulaccId).firstFree with
  | none =>
      refine iff_of_true ?_ (CxEntry.firstFree_eq_none_iff.mp free)
      intro result next completed succeeded
      rw [cxOpen_exhausted _ _ (findCxId_mulacc has)
        (mulacc_stateful has) free] at completed
      cases completed
      exact absurd rfl succeeded
  | some stateId =>
      exact iff_of_false
        (not_opensFresh_of_free initial has settled free cxShare userCxSel)
        (fun taken => taken stateId (CxEntry.firstFree_eq_some_iff.mp free).1)

theorem opensFresh_iff_all_taken_third :
    ∃ one two,
      cxOpen (mulaccPlatform bareOthers) Mulacc.cxGuidMulacc 0 0
          (cxInit sourceConfig (mulacc.initial, ())) =
        some (0x10000002, one) ∧
      cxOpen (mulaccPlatform bareOthers) Mulacc.cxGuidMulacc 0 0 one =
        some (0x10010002, two) ∧
      ¬OpensFresh (mulaccPlatform bareOthers) 0 0 one ∧
      OpensFresh (mulaccPlatform bareOthers) 0 0 two := by
  obtain ⟨one, two, first, second, oneFree, allTaken⟩ : ∃ one two,
      cxOpen (mulaccPlatform bareOthers) Mulacc.cxGuidMulacc 0 0
          (cxInit sourceConfig (mulacc.initial, ())) =
        some (0x10000002, one) ∧
      cxOpen (mulaccPlatform bareOthers) Mulacc.cxGuidMulacc 0 0 one =
        some (0x10010002, two) ∧
      (one.cxMap mulaccId).firstFree = some 1 ∧
      (two.cxMap mulaccId).firstFree = none :=
    ⟨_, _, rfl, rfl, rfl, rfl⟩
  have afterOne : RuntimeReachable (mulaccPlatform bareOthers) sourceConfig
      (mulacc.initial, ()) one := .single (.opened first)
  refine ⟨one, two, first, second, ?_, ?_⟩
  · rw [opensFresh_iff_all_taken rfl afterOne]
    intro taken
    exact taken 1 (CxEntry.firstFree_eq_some_iff.mp oneFree).1
  · rw [opensFresh_iff_all_taken rfl (afterOne.tail (.opened second))]
    exact CxEntry.firstFree_eq_none_iff.mp allTaken

/-- The first open after `cx_init` leaves the status word `0x10000001`, with the
data-clean value `CX_OFF`. -/
theorem first_open_is_off :
    ∃ next,
      cxOpen (mulaccPlatform bareOthers) Mulacc.cxGuidMulacc 0 0
          (cxInit sourceConfig (mulacc.initial, ())) =
        some (0x10000002, next) ∧
      ((next.cxSel 0x10000002).cxReadStatus (mulaccPlatform bareOthers)).map
          Prod.fst = some 0x10000001 ∧
      ¬OpensFresh (mulaccPlatform bareOthers) 0 0
        (cxInit sourceConfig (mulacc.initial, ())) := by
  have isFree : (sourceConfig.cxMap mulaccId).firstFree = some 0 := rfl
  refine ⟨_, rfl, rfl, ?_⟩
  exact not_opensFresh_of_free rfl sourceConfig.cxMap_hasConfig
    mulacc.initial_settled isFree 0 0

end CxRuntime
