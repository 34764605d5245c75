import CxRuntime.Lib.Loop
import CxRuntime.Runtime.CxMap
import CxRuntime.Runtime.Selector
import Mathlib.Logic.Relation

/-!
# The machine-mode runtime

`ci_m.c` over a hart whose `cx_reg` instruction, `CX_INITIAL` and
`GET_CX_INITIALIZER` are parameters.  `cxOpen_iff` describes a completed
`cx_open` by its five outcomes; everything later is derived from it.
-/

namespace CxRuntime

/-- What the runtime takes from outside its sources. -/
structure Platform (σ : Type) where
  /-- `cx_reg cf_id, rd, rs1, rs2` under the given `MCX_SELECTOR`; `none` if the
  instruction does not return. -/
  cxReg : Word → Nat → Word → Word → σ → Option (Returned × σ)
  cxInitial : Word
  getCxInitializer : Word → Word

/-- The CSRs, the table of the runtime and the contexts of all CXUs. -/
structure Machine (σ : Type) where
  mcxSelector : Word
  cxStatus : Word
  cxMap : CxMap
  cxus : σ

variable {σ : Type}

/-- `cx_init`, with the registrations as a parameter. -/
def cxInit (config : CxConfig) (cxus : σ) : Machine σ :=
  { mcxSelector := 0
    cxStatus := 0
    cxMap := config.cxMap
    cxus := cxus }

namespace Machine

/-- `cx_sel`. -/
def cxSel (machine : Machine σ) (cxSel : Word) : Machine σ :=
  { machine with mcxSelector := cxSel }

@[simp] theorem cxSel_cxus (machine : Machine σ) (cxSel : Word) :
    (machine.cxSel cxSel).cxus = machine.cxus := rfl

def cxReg (platform : Platform σ) (cfId : Nat) (rs1 rs2 : Word)
    (machine : Machine σ) : Option (Returned × Machine σ) :=
  (platform.cxReg machine.mcxSelector cfId rs1 rs2 machine.cxus).map
    fun answer => (answer.1, { machine with cxus := answer.2 })

/-- `CX_READ_STATUS`. -/
def cxReadStatus (platform : Platform σ) (machine : Machine σ) :
    Option (Word × Machine σ) := do
  let (returned, machine) ← machine.cxReg platform 1023 0 0
  let status ← returned
  some (status, machine)

/-- `CX_WRITE_STATUS`. -/
def cxWriteStatus (platform : Platform σ) (status : Word)
    (machine : Machine σ) : Option (Machine σ) :=
  (machine.cxReg platform 1022 status 0).map Prod.snd

/-- `CX_WRITE_STATE`. -/
def cxWriteState (platform : Platform σ) (index value : Word)
    (machine : Machine σ) : Option (Machine σ) :=
  (machine.cxReg platform 1020 index value).map Prod.snd

/-- `cx_map[cx_id].avail_state_ids[state_id] = value`. -/
def setAvail (cxId : Fin numCx) (stateId : Nat) (value : Word)
    (machine : Machine σ) : Option (Machine σ) :=
  ((machine.cxMap cxId).setAvail stateId value).map fun entry =>
    { machine with cxMap := Function.update machine.cxMap cxId entry }

/-- `cx_open` from `sw_init` to the end of the software initialisation. -/
def initState (platform : Platform σ) (status stateSize : Word)
    (machine : Machine σ) : Option (Machine σ) := do
  let swInit := platform.getCxInitializer status
  let machine ← machine.cxWriteStatus platform platform.cxInitial
  if swInit ≠ 0 then
    let machine ← Loop.forUpTo stateSize.toNat
      (fun i => cxWriteState platform (BitVec.ofNat 32 i) 0) machine
    machine.cxWriteStatus platform CxCs.dirty.word
  else some machine

end Machine

open Machine in
def cxOpen (platform : Platform σ) (cxGuid _cxShare _userCxSel : Word)
    (machine : Machine σ) : Option (Word × Machine σ) :=
  match findCxId machine.cxMap cxGuid with
  | none => some (-1, machine)
  | some cxId =>
      let entry := machine.cxMap cxId
      if entry.numStates = 0 then
        some (genCxSel (BitVec.ofNat 32 cxId) 0 mcxVersion, machine)
      else
        let prevSel := machine.mcxSelector
        let stateId := entry.getFreeState
        if !entry.isValidStateId stateId then some (-1, machine)
        else do
          let newCxSel := genCxSel (BitVec.ofNat 32 cxId)
            (BitVec.ofInt 32 stateId) mcxVersion
          let machine := machine.cxSel newCxSel
          let (status, machine) ← machine.cxReadStatus platform
          let stateSize := getCxStateSize .uint status
          -- `prevSel` is not restored on this exit.
          if stateSize > 1023 then some (-1, machine)
          else
            let machine ← machine.setAvail cxId stateId.toNat cxUnavailState
            let machine ← machine.initState platform status stateSize
            some (newCxSel, machine.cxSel prevSel)

def cxClose (cxSel : Word) (machine : Machine σ) : Option (Machine σ) :=
  let cxId := (getCxId .int cxSel).toNat
  if inTable : cxId < numCx then
    let entry := machine.cxMap ⟨cxId, inTable⟩
    if entry.numStates = 0 then some machine
    else
      let stateId := (getCxState .int cxSel).toNat
      (entry.closeState stateId).map fun closed =>
        { machine with
          cxMap := Function.update machine.cxMap ⟨cxId, inTable⟩ closed }
  else some machine

def cxErrorClear (machine : Machine σ) : Machine σ :=
  { machine with cxStatus := 0 }

/-! ## Runs of instructions -/

variable {platform : Platform σ} {machine next : Machine σ}

namespace Machine

/-- Some `cx_reg` instructions under the current selector lead from one machine
to the other. -/
def Ran (platform : Platform σ) : Machine σ → Machine σ → Prop :=
  Relation.ReflTransGen fun machine next =>
    ∃ cfId rs1 rs2 returned,
      machine.cxReg platform cfId rs1 rs2 = some (returned, next)

/-- Two machines that differ at most in the contexts of the CXUs. -/
def SameRuntime (machine next : Machine σ) : Prop :=
  next = { machine with cxus := next.cxus }

private theorem cxReg_sameRuntime {cfId : Nat} {rs1 rs2 : Word}
    {returned : Returned}
    (executed : machine.cxReg platform cfId rs1 rs2 = some (returned, next)) :
    machine.SameRuntime next := by
  obtain ⟨_, _, equality⟩ := Option.map_eq_some_iff.mp executed
  cases equality
  rfl

theorem cxReg_eq_some {cfId : Nat} {rs1 rs2 : Word} {returned : Returned}
    (executed : machine.cxReg platform cfId rs1 rs2 = some (returned, next)) :
    platform.cxReg machine.mcxSelector cfId rs1 rs2 machine.cxus =
      some (returned, next.cxus) := by
  obtain ⟨_, answered, equality⟩ := Option.map_eq_some_iff.mp executed
  cases equality
  exact answered

namespace Ran

theorem single {cfId : Nat} {rs1 rs2 : Word} {returned : Returned}
    (executed : machine.cxReg platform cfId rs1 rs2 = some (returned, next)) :
    Ran platform machine next :=
  Relation.ReflTransGen.single ⟨cfId, rs1, rs2, returned, executed⟩

/-- Instructions only change the contexts of the CXUs. -/
theorem sameRuntime (ran : Ran platform machine next) :
    machine.SameRuntime next := by
  induction ran with
  | refl => rfl
  | tail _ executed induction =>
      obtain ⟨_, _, _, _, executed⟩ := executed
      have last := cxReg_sameRuntime executed
      rw [SameRuntime] at last induction ⊢
      rw [last, induction]

theorem mcxSelector_eq (ran : Ran platform machine next) :
    next.mcxSelector = machine.mcxSelector := by
  rw [ran.sameRuntime]

theorem cxMap_eq (ran : Ran platform machine next) :
    next.cxMap = machine.cxMap := by
  rw [ran.sameRuntime]

/-- What every instruction under the selector preserves survives the run. -/
theorem invariant (ran : Ran platform machine next) (holds : σ → Prop)
    (preserved : ∀ {cfId rs1 rs2 cxus returned after}, holds cxus →
      platform.cxReg machine.mcxSelector cfId rs1 rs2 cxus =
        some (returned, after) → holds after)
    (start : holds machine.cxus) : holds next.cxus := by
  induction ran with
  | refl => exact start
  | @tail middle after before executed induction =>
      obtain ⟨_, _, _, _, executed⟩ := executed
      have selected : middle.mcxSelector = machine.mcxSelector :=
        mcxSelector_eq before
      have answered := cxReg_eq_some executed
      rw [selected] at answered
      exact preserved induction answered

end Ran

theorem cxReadStatus_eq_some {status : Word}
    (read : machine.cxReadStatus platform = some (status, next)) :
    machine.cxReg platform 1023 0 0 = some (some status, next) := by
  obtain ⟨⟨returned, after⟩, executed, rest⟩ := Option.bind_eq_some_iff.mp read
  obtain ⟨_, rfl, equality⟩ := Option.bind_eq_some_iff.mp rest
  cases equality
  exact executed

theorem cxReadStatus_ran {status : Word}
    (read : machine.cxReadStatus platform = some (status, next)) :
    Ran platform machine next :=
  .single (cxReadStatus_eq_some read)

theorem cxWriteStatus_ran {status : Word}
    (written : machine.cxWriteStatus platform status = some next) :
    Ran platform machine next := by
  obtain ⟨⟨returned, _⟩, executed, rfl⟩ := Option.map_eq_some_iff.mp written
  exact .single executed

theorem cxWriteState_ran {index value : Word}
    (written : machine.cxWriteState platform index value = some next) :
    Ran platform machine next := by
  obtain ⟨⟨returned, _⟩, executed, rfl⟩ := Option.map_eq_some_iff.mp written
  exact .single executed

theorem initState_ran {status stateSize : Word}
    (initialised : machine.initState platform status stateSize = some next) :
    Ran platform machine next := by
  obtain ⟨marked, written, rest⟩ := Option.bind_eq_some_iff.mp initialised
  have first := cxWriteStatus_ran written
  split at rest
  · obtain ⟨cleared, looped, last⟩ := Option.bind_eq_some_iff.mp rest
    have loop : Ran platform machine cleared :=
      Loop.forUpTo_partial (fun _ current => Ran platform machine current)
        first _ (fun _ _ _ _ ran stepped =>
          ran.trans (cxWriteState_ran stepped)) looped
    exact loop.trans (cxWriteStatus_ran last)
  · cases rest
    exact first

end Machine

/-! ## The outcomes of `cx_open` -/

/-- A completed `cx_open`: the result and the machine it leaves. -/
inductive Opens (platform : Platform σ) (cxGuid : Word) (machine : Machine σ) :
    Word → Machine σ → Prop
  | unknown : findCxId machine.cxMap cxGuid = none →
      Opens platform cxGuid machine (-1) machine
  | stateless {cxId} : findCxId machine.cxMap cxGuid = some cxId →
      (machine.cxMap cxId).numStates = 0 →
      Opens platform cxGuid machine (slotSel cxId 0) machine
  | exhausted {cxId} : findCxId machine.cxMap cxGuid = some cxId →
      (machine.cxMap cxId).numStates ≠ 0 →
      (machine.cxMap cxId).firstFree = none →
      Opens platform cxGuid machine (-1) machine
  | oversized {cxId stateId status read} :
      findCxId machine.cxMap cxGuid = some cxId →
      (machine.cxMap cxId).firstFree = some stateId →
      (machine.cxSel (slotSel cxId stateId)).cxReadStatus platform =
        some (status, read) →
      getCxStateSize .uint status > 1023 →
      Opens platform cxGuid machine (-1) read
  | opened {cxId stateId status read taken ready} :
      findCxId machine.cxMap cxGuid = some cxId →
      (machine.cxMap cxId).firstFree = some stateId →
      (machine.cxSel (slotSel cxId stateId)).cxReadStatus platform =
        some (status, read) →
      ¬getCxStateSize .uint status > 1023 →
      read.setAvail cxId stateId cxUnavailState = some taken →
      taken.initState platform status (getCxStateSize .uint status) =
        some ready →
      Opens platform cxGuid machine (slotSel cxId stateId)
        (ready.cxSel machine.mcxSelector)

theorem numStates_ne_zero_of_firstFree {entry : CxEntry} {stateId : Nat}
    (free : entry.firstFree = some stateId) : entry.numStates ≠ 0 :=
  Nat.ne_of_gt (Nat.lt_of_le_of_lt (Nat.zero_le _) (CxEntry.firstFree_lt free))

section OpenCases

variable {cxGuid : Word} {cxId : Fin numCx} (cxShare userCxSel : Word)

theorem cxOpen_stateless (found : findCxId machine.cxMap cxGuid = some cxId)
    (stateless : (machine.cxMap cxId).numStates = 0) :
    cxOpen platform cxGuid cxShare userCxSel machine =
      some (slotSel cxId 0, machine) := by
  simp only [cxOpen, found, if_pos stateless]
  rfl

theorem cxOpen_exhausted (found : findCxId machine.cxMap cxGuid = some cxId)
    (stateful : (machine.cxMap cxId).numStates ≠ 0)
    (full : (machine.cxMap cxId).firstFree = none) :
    cxOpen platform cxGuid cxShare userCxSel machine = some (-1, machine) := by
  have guard : (!(machine.cxMap cxId).isValidStateId
      (machine.cxMap cxId).getFreeState) = true := by
    rw [CxEntry.isValidStateId_getFreeState, full]
    rfl
  simp only [cxOpen, found, if_neg stateful, if_pos guard]

private theorem cxOpen_free (found : findCxId machine.cxMap cxGuid = some cxId)
    {stateId : Nat} (free : (machine.cxMap cxId).firstFree = some stateId) :
    cxOpen platform cxGuid cxShare userCxSel machine =
      ((machine.cxSel (slotSel cxId stateId)).cxReadStatus platform).bind
        fun (status, read) =>
          if getCxStateSize .uint status > 1023 then some (-1, read)
          else
            (read.setAvail cxId stateId cxUnavailState).bind fun taken =>
              (taken.initState platform status (getCxStateSize .uint status)).bind
                fun ready =>
                  some (slotSel cxId stateId,
                    ready.cxSel machine.mcxSelector) := by
  have stateIdEq : (machine.cxMap cxId).getFreeState = (stateId : Int) := by
    simp only [CxEntry.getFreeState, free]
  have guard : ¬(!(machine.cxMap cxId).isValidStateId stateId) = true := by
    rw [← stateIdEq, CxEntry.isValidStateId_getFreeState, free,
      Option.isSome_some]
    exact Bool.false_ne_true
  simp only [cxOpen, found, if_neg (numStates_ne_zero_of_firstFree free),
    stateIdEq, if_neg guard, BitVec.ofInt_natCast, Int.toNat_natCast, slotSel]
  rfl

end OpenCases

theorem cxOpen_iff {cxGuid cxShare userCxSel result : Word} :
    cxOpen platform cxGuid cxShare userCxSel machine = some (result, next) ↔
      Opens platform cxGuid machine result next := by
  constructor
  · intro completed
    cases found : findCxId machine.cxMap cxGuid with
    | none =>
        simp only [cxOpen, found] at completed
        cases completed
        exact .unknown found
    | some cxId =>
        by_cases stateless : (machine.cxMap cxId).numStates = 0
        · rw [cxOpen_stateless _ _ found stateless] at completed
          cases completed
          exact .stateless found stateless
        cases free : (machine.cxMap cxId).firstFree with
        | none =>
            rw [cxOpen_exhausted _ _ found stateless free] at completed
            cases completed
            exact .exhausted found stateless free
        | some stateId =>
            rw [cxOpen_free _ _ found free] at completed
            obtain ⟨⟨status, read⟩, isRead, rest⟩ :=
              Option.bind_eq_some_iff.mp completed
            dsimp only at rest
            split at rest
            · cases rest
              exact .oversized found free isRead ‹_›
            · obtain ⟨taken, isTaken, rest⟩ := Option.bind_eq_some_iff.mp rest
              obtain ⟨ready, isReady, equality⟩ := Option.bind_eq_some_iff.mp rest
              cases equality
              exact .opened found free isRead ‹_› isTaken isReady
  · intro opens
    cases opens with
    | unknown found => simp only [cxOpen, found]
    | stateless found stateless => exact cxOpen_stateless _ _ found stateless
    | exhausted found stateful full =>
        exact cxOpen_exhausted _ _ found stateful full
    | oversized found free isRead large =>
        simp only [cxOpen_free _ _ found free, isRead, Option.bind_some,
          if_pos large]
    | opened found free isRead small isTaken isReady =>
        simp only [cxOpen_free _ _ found free, isRead, Option.bind_some,
          if_neg small, isTaken, isReady]

/-- What a successful `cx_open` of a stateful CX does to the table. -/
theorem opened_cxMap {cxId : Fin numCx} {stateId : Nat}
    {status stateSize selector : Word} {read taken ready : Machine σ}
    (isRead : (machine.cxSel selector).cxReadStatus platform =
      some (status, read))
    (isTaken : read.setAvail cxId stateId cxUnavailState = some taken)
    (isReady : taken.initState platform status stateSize = some ready) :
    ∃ entry, (machine.cxMap cxId).Allocates entry stateId cxUnavailState ∧
      ready.cxMap = Function.update machine.cxMap cxId entry := by
  have readMap : read.cxMap = machine.cxMap :=
    (Machine.cxReadStatus_ran isRead).cxMap_eq
  obtain ⟨entry, stored, rfl⟩ := Option.map_eq_some_iff.mp isTaken
  have allocates := (CxEntry.allocates_of_setAvail stored).2
  rw [readMap] at allocates
  refine ⟨entry, allocates, ?_⟩
  rw [(Machine.initState_ran isReady).cxMap_eq, readMap]

/-- What every instruction under the selector of the first free state preserves
survives `cx_open`. -/
theorem Opens.invariant {cxGuid result : Word}
    (opens : Opens platform cxGuid machine result next) (holds : σ → Prop)
    (preserved : ∀ {cxId stateId}, findCxId machine.cxMap cxGuid = some cxId →
      (machine.cxMap cxId).firstFree = some stateId →
      ∀ {cfId rs1 rs2 cxus returned after}, holds cxus →
        platform.cxReg (slotSel cxId stateId) cfId rs1 rs2 cxus =
          some (returned, after) → holds after)
    (start : holds machine.cxus) : holds next.cxus := by
  cases opens with
  | unknown => exact start
  | stateless => exact start
  | exhausted => exact start
  | oversized found free isRead _ =>
      exact (Machine.cxReadStatus_ran isRead).invariant holds
        (preserved found free) start
  | opened found free isRead _ isTaken isReady =>
      have ran := Machine.cxReadStatus_ran isRead
      have readHolds := ran.invariant holds (preserved found free) start
      obtain ⟨entry, _, rfl⟩ := Option.map_eq_some_iff.mp isTaken
      refine (Machine.initState_ran isReady).invariant holds ?_ readHolds
      intro _ _ _ _ _ _ held answered
      have selected := ran.mcxSelector_eq
      dsimp only [Machine.cxSel] at selected answered
      rw [selected] at answered
      exact preserved found free held answered

/-- If `cx_open` reads a status word, its size is at most 1023. -/
def StatusFits (platform : Platform σ) (cxGuid : Word) (machine : Machine σ) :
    Prop :=
  ∀ {cxId stateId status read},
    findCxId machine.cxMap cxGuid = some cxId →
    (machine.cxMap cxId).firstFree = some stateId →
    (machine.cxSel (slotSel cxId stateId)).cxReadStatus platform =
      some (status, read) →
    ¬getCxStateSize .uint status > 1023

/-- With a free state whose size fits, `cx_open` returns its selector. -/
theorem Opens.result_of_free {cxGuid result : Word} {cxId : Fin numCx}
    {stateId : Nat} (opens : Opens platform cxGuid machine result next)
    (fits : StatusFits platform cxGuid machine)
    (found : findCxId machine.cxMap cxGuid = some cxId)
    (free : (machine.cxMap cxId).firstFree = some stateId) :
    result = slotSel cxId stateId := by
  cases opens with
  | unknown absent => cases found.symm.trans absent
  | stateless isFound stateless =>
      cases found.symm.trans isFound
      exact absurd stateless (numStates_ne_zero_of_firstFree free)
  | exhausted isFound _ full =>
      cases found.symm.trans isFound
      cases free.symm.trans full
  | oversized isFound isFree isRead large =>
      exact absurd large (fits isFound isFree isRead)
  | opened isFound isFree =>
      cases found.symm.trans isFound
      cases free.symm.trans isFree
      rfl

/-! ## Opens that return -/

/-- The instructions that `cx_open` executes under a selector return. -/
structure Platform.AnswersAt (platform : Platform σ) (cxSel : Word) : Prop where
  readStatus : ∀ cxus, ∃ status next,
    platform.cxReg cxSel 1023 0 0 cxus = some (some status, next)
  writeStatus : ∀ status cxus, ∃ answer,
    platform.cxReg cxSel 1022 status 0 cxus = some answer
  writeState : ∀ index value cxus, ∃ answer,
    platform.cxReg cxSel 1020 index value cxus = some answer

namespace Machine

theorem cxReadStatus_total (answers : platform.AnswersAt machine.mcxSelector) :
    ∃ status next, machine.cxReadStatus platform = some (status, next) := by
  obtain ⟨status, cxus, executed⟩ := answers.readStatus machine.cxus
  refine ⟨status, { machine with cxus := cxus }, ?_⟩
  simp only [cxReadStatus, cxReg, executed, Option.map_some,
    Option.bind_eq_bind, Option.bind_some]

theorem cxWriteStatus_total
    (answers : platform.AnswersAt machine.mcxSelector) (status : Word) :
    ∃ next, machine.cxWriteStatus platform status = some next := by
  obtain ⟨answer, executed⟩ := answers.writeStatus status machine.cxus
  exact ⟨_, by rw [cxWriteStatus, cxReg, executed]; rfl⟩

theorem cxWriteState_total
    (answers : platform.AnswersAt machine.mcxSelector) (index value : Word) :
    ∃ next, machine.cxWriteState platform index value = some next := by
  obtain ⟨answer, executed⟩ := answers.writeState index value machine.cxus
  exact ⟨_, by rw [cxWriteState, cxReg, executed]; rfl⟩

theorem initState_total (answers : platform.AnswersAt machine.mcxSelector)
    (status stateSize : Word) :
    ∃ next, machine.initState platform status stateSize = some next := by
  obtain ⟨marked, written⟩ :=
    cxWriteStatus_total answers platform.cxInitial
  have sameSelector := (cxWriteStatus_ran written).mcxSelector_eq
  by_cases swInit : platform.getCxInitializer status ≠ 0
  · obtain ⟨cleared, looped, cleaned⟩ := Loop.forUpTo_total
      (fun i => cxWriteState platform (BitVec.ofNat 32 i) 0) marked
      (fun _ current => current.mcxSelector = machine.mcxSelector)
      sameSelector stateSize.toNat (by
        intro i current _ selected
        have currentAnswers : platform.AnswersAt current.mcxSelector := by
          rwa [selected]
        obtain ⟨next, stored⟩ :=
          cxWriteState_total currentAnswers (BitVec.ofNat 32 i) 0
        exact ⟨next, stored,
          (cxWriteState_ran stored).mcxSelector_eq.trans selected⟩)
    have clearedAnswers : platform.AnswersAt cleared.mcxSelector := by
      rwa [cleaned]
    obtain ⟨next, last⟩ :=
      cxWriteStatus_total clearedAnswers CxCs.dirty.word
    refine ⟨next, ?_⟩
    simp only [initState, written, Option.bind_eq_bind, Option.bind_some,
      if_pos swInit, looped, last]
  · refine ⟨marked, ?_⟩
    simp only [initState, written, Option.bind_eq_bind, Option.bind_some,
      if_neg swInit]

end Machine

/-- An open with a free state that answers ends in one of the last two outcomes. -/
theorem cxOpen_total {cxGuid : Word} {cxId : Fin numCx} {stateId : Nat}
    (found : findCxId machine.cxMap cxGuid = some cxId)
    (free : (machine.cxMap cxId).firstFree = some stateId)
    (answers : platform.AnswersAt (slotSel cxId stateId))
    (cxShare userCxSel : Word) :
    ∃ result next, cxOpen platform cxGuid cxShare userCxSel machine =
      some (result, next) := by
  obtain ⟨status, read, isRead⟩ :
      ∃ status read, (machine.cxSel (slotSel cxId stateId)).cxReadStatus
        platform = some (status, read) := Machine.cxReadStatus_total answers
  by_cases large : getCxStateSize .uint status > 1023
  · exact ⟨_, _, cxOpen_iff.mpr (.oversized found free isRead large)⟩
  · have same := Machine.cxReadStatus_ran isRead
    have below : stateId < (read.cxMap cxId).numStates := by
      rw [same.cxMap_eq]
      exact CxEntry.firstFree_lt free
    obtain ⟨entry, stored, _⟩ := CxEntry.setAvail_of_lt below cxUnavailState
    have isTaken : read.setAvail cxId stateId cxUnavailState = some _ :=
      Option.map_eq_some_iff.mpr ⟨entry, stored, rfl⟩
    have selected : read.mcxSelector = slotSel cxId stateId :=
      same.mcxSelector_eq
    have stillAnswers : platform.AnswersAt read.mcxSelector := by
      rwa [selected]
    obtain ⟨ready, isReady⟩ :
        ∃ ready, Machine.initState platform status
          (getCxStateSize .uint status)
          { read with cxMap := Function.update read.cxMap cxId entry } =
            some ready := by
      apply Machine.initState_total
      exact stillAnswers
    exact ⟨_, _, cxOpen_iff.mpr
      (.opened found free isRead large isTaken isReady)⟩

/-! ## Closing a selector of the table -/

theorem cxClose_stateless {cxId : Fin numCx} (stateId : Nat)
    (stateless : (machine.cxMap cxId).numStates = 0) :
    cxClose (slotSel cxId stateId) machine = some machine := by
  have sameId := getCxId_slotSel .int cxId stateId
  have inTable : (getCxId .int (slotSel cxId stateId)).toNat < numCx :=
    sameId ▸ cxId.isLt
  have same : (⟨_, inTable⟩ : Fin numCx) = cxId := Fin.ext sameId
  simp only [cxClose, dif_pos inTable, same, if_pos stateless]

theorem cxClose_stateful {cxId : Fin numCx} {stateId : Nat}
    (below : stateId < (machine.cxMap cxId).numStates) (small : stateId < 256) :
    ∃ entry, (machine.cxMap cxId).Allocates entry stateId cxAvailState ∧
      cxClose (slotSel cxId stateId) machine =
        some { machine with
          cxMap := Function.update machine.cxMap cxId entry } := by
  have sameId := getCxId_slotSel .int cxId stateId
  have inTable : (getCxId .int (slotSel cxId stateId)).toNat < numCx :=
    sameId ▸ cxId.isLt
  have same : (⟨_, inTable⟩ : Fin numCx) = cxId := Fin.ext sameId
  have stateful : (machine.cxMap cxId).numStates ≠ 0 :=
    Nat.ne_of_gt (Nat.lt_of_le_of_lt (Nat.zero_le _) below)
  obtain ⟨entry, closed, allocates⟩ := CxEntry.closeState_of_lt below
  refine ⟨entry, allocates, ?_⟩
  simp only [cxClose, dif_pos inTable, same, if_neg stateful,
    getCxState_slotSel .int cxId small, closed, Option.map_some]

/-- A `cx_close` that returns changes at most one entry. -/
theorem cxClose_cases {cxSel : Word}
    (closed : cxClose cxSel machine = some next) :
    next = machine ∨ ∃ cxId stateId entry,
      (machine.cxMap cxId).Allocates entry stateId cxAvailState ∧
        next = { machine with
          cxMap := Function.update machine.cxMap cxId entry } := by
  simp only [cxClose] at closed
  split at closed
  · split at closed
    · cases closed
      exact Or.inl rfl
    · obtain ⟨entry, isClosed, rfl⟩ := Option.map_eq_some_iff.mp closed
      exact Or.inr ⟨_, _, entry, (CxEntry.allocates_of_closeState isClosed).2,
        rfl⟩
  · cases closed
    exact Or.inl rfl

end CxRuntime
