import CxRuntime.Runtime.Allocation
import CxRuntime.Runtime.MulaccPlatform
import CxRuntime.Runtime.Reachability

/-!
# Sharing counters

The comment on `cx_state_info_t` builds the sharing policy on `counter`: it is
to count the opens that hold a state, and `share` is to be theirs.  `cx_open`
never writes the field and `cx_close` decrements it, so it counts in exactly
the runs that hand out no state.
-/

namespace CxRuntime

variable {σ : Type}

structure LiveOpen where
  cxSel : Word
  cxShare : Word

/-- The runtime with its live opens, newest first. -/
structure ShareLedger (σ : Type) where
  machine : Machine σ
  live : List LiveOpen

/-- A call of the runtime, or what happens between two calls. -/
inductive RuntimeCall (σ : Type)
  | cxOpen (cxGuid cxShare userCxSel : Word)
  | cxClose (cxSel : Word)
  | between (mcxSelector cxStatus : Word) (cxus : σ)

namespace ShareLedger

def init (config : CxConfig) (cxus : σ) : ShareLedger σ :=
  { machine := cxInit config cxus, live := [] }

/-- An open that returns a selector joins the live ones; a close removes a live
open with its argument, if there is one. -/
def step (platform : Platform σ) (ledger : ShareLedger σ) :
    RuntimeCall σ → Option (ShareLedger σ)
  | .cxOpen cxGuid cxShare userCxSel =>
      (cxOpen platform cxGuid cxShare userCxSel ledger.machine).map
        fun (result, machine) =>
          { machine := machine
            live :=
              if result = -1 then ledger.live
              else ⟨result, cxShare⟩ :: ledger.live }
  | .cxClose cxSel =>
      (cxClose cxSel ledger.machine).map fun machine =>
        { machine := machine
          live := ledger.live.eraseP fun held => held.cxSel = cxSel }
  | .between mcxSelector cxStatus cxus =>
      some
        { ledger with
          machine :=
            { ledger.machine with
              mcxSelector := mcxSelector
              cxStatus := cxStatus
              cxus := cxus } }

def holds (cxId stateId : Nat) (held : LiveOpen) : Bool :=
  (getCxId .int held.cxSel).toNat = cxId ∧
    (getCxState .int held.cxSel).toNat = stateId

/-- `info` describes the opens that hold its state. -/
structure InfoCounts (info : CxStateInfo) (opens : List LiveOpen) : Prop where
  counter_eq : info.counter.toInt = opens.length
  share_held : 0 < info.counter.toInt →
    ∀ held ∈ opens, info.share = held.cxShare
  share_unset : info.counter.toInt = 0 → info.share = -1

def CountersCount (ledger : ShareLedger σ) : Prop :=
  ∀ (cxId : Fin numCx) (stateId : Nat) (info : CxStateInfo),
    (ledger.machine.cxMap cxId).stateInfo[stateId]? = some info →
      InfoCounts info (ledger.live.filter (holds cxId stateId))

def ClosesLive (ledger : ShareLedger σ) : RuntimeCall σ → Prop
  | .cxClose cxSel => ∃ held ∈ ledger.live, held.cxSel = cxSel
  | _ => True

end ShareLedger

/-- The guid names a CX with a free state whose context reports a size that
`cx_open` accepts. -/
def OffersState (platform : Platform σ) (cxGuid : Word) (machine : Machine σ) :
    Prop :=
  ∃ cxId stateId status read,
    findCxId machine.cxMap cxGuid = some cxId ∧
      (machine.cxMap cxId).firstFree = some stateId ∧
      (machine.cxSel (slotSel cxId stateId)).cxReadStatus platform =
        some (status, read) ∧
      ¬getCxStateSize .uint status > 1023

/-- The call is no open of a CX that has a state to hand out. -/
def ShareLedger.HandsOutNothing (platform : Platform σ)
    (ledger : ShareLedger σ) : RuntimeCall σ → Prop
  | .cxOpen cxGuid _ _ => ¬OffersState platform cxGuid ledger.machine
  | _ => True

variable {platform : Platform σ} {config : CxConfig} {machine next : Machine σ}

/-! ## What the calls do to the sharing data -/

theorem CxEntry.stateInfo_of_setAvail {entry next : CxEntry} {stateId : Nat}
    {value : Word} (stored : entry.setAvail stateId value = some next) :
    next.stateInfo = entry.stateInfo := by
  unfold setAvail at stored
  split at stored
  · cases stored
    rfl
  · cases stored

theorem Opens.stateInfo_eq {cxGuid result : Word}
    (opens : Opens platform cxGuid machine result next) (cxId : Fin numCx) :
    (next.cxMap cxId).stateInfo = (machine.cxMap cxId).stateInfo := by
  cases opens with
  | unknown => rfl
  | stateless => rfl
  | exhausted => rfl
  | oversized _ _ isRead _ =>
      rw [(Machine.cxReadStatus_ran isRead).cxMap_eq]
      rfl
  | @opened taken _ _ read _ ready _ _ isRead _ isTaken isReady =>
      have readMap : read.cxMap = machine.cxMap :=
        (Machine.cxReadStatus_ran isRead).cxMap_eq
      obtain ⟨entry, stored, rfl⟩ := Option.map_eq_some_iff.mp isTaken
      have readyMap : ready.cxMap = Function.update read.cxMap taken entry :=
        (Machine.initState_ran isReady).cxMap_eq
      change (ready.cxMap cxId).stateInfo = _
      rw [readyMap, ← readMap]
      by_cases same : cxId = taken
      · subst same
        rw [Function.update_self]
        exact CxEntry.stateInfo_of_setAvail stored
      · rw [Function.update_of_ne same]

private theorem Opens.result_of_offered {cxGuid result : Word}
    (opens : Opens platform cxGuid machine result next)
    (offered : OffersState platform cxGuid machine) :
    ∃ cxId stateId, stateId < (machine.cxMap cxId).numStates ∧
      result = slotSel cxId stateId := by
  obtain ⟨cxId, stateId, status, read, found, free, isRead, small⟩ := offered
  have fits : StatusFits platform cxGuid machine := by
    intro otherId otherState otherStatus otherRead isFound isFree wasRead
    cases found.symm.trans isFound
    cases free.symm.trans isFree
    cases isRead.symm.trans wasRead
    exact small
  exact ⟨cxId, stateId, CxEntry.firstFree_lt free,
    opens.result_of_free fits found free⟩

/-- An open that is offered none returns `-1`, or the CX has no states. -/
theorem Opens.result_of_not_offered {cxGuid result : Word}
    (opens : Opens platform cxGuid machine result next)
    (refused : ¬OffersState platform cxGuid machine) :
    result = -1 ∨ ∃ cxId, (machine.cxMap cxId).numStates = 0 ∧
      result = slotSel cxId 0 := by
  cases opens with
  | unknown => exact Or.inl rfl
  | @stateless cxId _ stateless => exact Or.inr ⟨cxId, stateless, rfl⟩
  | exhausted => exact Or.inl rfl
  | oversized => exact Or.inl rfl
  | opened found free isRead small =>
      exact absurd ⟨_, _, _, _, found, free, isRead, small⟩ refused

namespace ShareLedger

variable {ledger after : ShareLedger σ} {call : RuntimeCall σ}

theorem step_hasConfig (has : ledger.machine.cxMap.HasConfig config)
    (called : ledger.step platform call = some after) :
    after.machine.cxMap.HasConfig config := by
  cases call with
  | cxOpen cxGuid cxShare userCxSel =>
      obtain ⟨⟨result, machine⟩, completed, rfl⟩ :=
        Option.map_eq_some_iff.mp called
      exact hasConfig_step has (.opened completed)
  | cxClose cxSel =>
      obtain ⟨machine, completed, rfl⟩ := Option.map_eq_some_iff.mp called
      exact hasConfig_step has (@RuntimeStep.closed σ platform _ _ _ completed)
  | between =>
      cases called
      exact has

theorem holds_slotSel (cxId other : Fin numCx) {stateId otherId : Nat}
    (cxShare : Word) (small : otherId < 256) :
    holds cxId stateId ⟨slotSel other otherId, cxShare⟩ = true ↔
      other = cxId ∧ otherId = stateId := by
  simp only [holds, getCxId_slotSel, getCxState_slotSel .int other small,
    decide_eq_true_eq, Fin.val_inj]

/-! ## Runs that hand out no state -/

structure Untaken (config : CxConfig) (ledger : ShareLedger σ) : Prop where
  hasConfig : ledger.machine.cxMap.HasConfig config
  fresh : ∀ cxId, (ledger.machine.cxMap cxId).stateInfo =
    List.replicate (config.numStates cxId) { share := -1, counter := 0 }
  stateless : ∀ held ∈ ledger.live, ∃ cxId, config.numStates cxId = 0 ∧
    held.cxSel = slotSel cxId 0

theorem untaken_init (config : CxConfig) (cxus : σ) :
    Untaken config (init config cxus) where
  hasConfig := config.cxMap_hasConfig
  fresh := fun _ => rfl
  stateless := fun _ member => absurd member List.not_mem_nil

theorem Untaken.step (untaken : Untaken config ledger)
    (closesLive : ClosesLive ledger call)
    (handsOutNothing : HandsOutNothing platform ledger call)
    (called : ledger.step platform call = some after) :
    Untaken config after := by
  have has := step_hasConfig untaken.hasConfig called
  cases call with
  | cxOpen cxGuid cxShare userCxSel =>
      obtain ⟨⟨result, machine⟩, completed, rfl⟩ :=
        Option.map_eq_some_iff.mp called
      have opens := cxOpen_iff.mp completed
      refine ⟨has, ?_, ?_⟩
      · intro cxId
        exact (opens.stateInfo_eq cxId).trans (untaken.fresh cxId)
      · rcases opens.result_of_not_offered handsOutNothing with
          rfl | ⟨cxId, stateless, rfl⟩
        · exact untaken.stateless
        · rw [(untaken.hasConfig cxId).2] at stateless
          intro held member
          dsimp only at member
          rw [if_neg (slotSel_ne_neg_one cxId 0)] at member
          rcases List.mem_cons.mp member with rfl | earlier
          · exact ⟨cxId, stateless, rfl⟩
          · exact untaken.stateless held earlier
  | cxClose cxSel =>
      obtain ⟨machine, completed, rfl⟩ := Option.map_eq_some_iff.mp called
      obtain ⟨held, member, rfl⟩ := closesLive
      obtain ⟨cxId, stateless, isSlot⟩ := untaken.stateless held member
      have entryStateless : (ledger.machine.cxMap cxId).numStates = 0 :=
        (untaken.hasConfig cxId).2.trans stateless
      rw [isSlot, cxClose_stateless 0 entryStateless] at completed
      cases completed
      exact ⟨has, untaken.fresh, fun other otherMember =>
        untaken.stateless other (List.mem_of_mem_eraseP otherMember)⟩
  | between =>
      cases called
      exact ⟨has, untaken.fresh, untaken.stateless⟩

private theorem Untaken.countersCount (untaken : Untaken config ledger) :
    CountersCount ledger := by
  intro cxId stateId info found
  rw [untaken.fresh cxId, List.getElem?_replicate] at found
  split at found
  · rename_i below
    cases found
    have nobody : ledger.live.filter (holds cxId stateId) = [] := by
      rw [List.filter_eq_nil_iff]
      intro held member isHeld
      obtain ⟨other, stateless, isSlot⟩ := untaken.stateless held member
      obtain ⟨cxSel, cxShare⟩ := held
      dsimp only at isSlot
      rw [isSlot, holds_slotSel cxId other cxShare (by decide)] at isHeld
      obtain ⟨rfl, _⟩ := isHeld
      rw [stateless] at below
      exact Nat.not_lt_zero _ below
    rw [nobody]
    exact ⟨rfl, fun positive => absurd positive (by decide), fun _ => rfl⟩
  · cases found

/-! ## Handing out a state -/

/-- An open that is offered a state adds an open that its counter misses. -/
theorem not_countersCount_of_offered
    (has : ledger.machine.cxMap.HasConfig config)
    {cxGuid cxShare userCxSel : Word}
    (called : ledger.step platform (.cxOpen cxGuid cxShare userCxSel) =
      some after)
    (offered : OffersState platform cxGuid ledger.machine)
    (before : CountersCount ledger) : ¬CountersCount after := by
  intro counts
  obtain ⟨⟨result, machine⟩, completed, rfl⟩ :=
    Option.map_eq_some_iff.mp called
  have opens := cxOpen_iff.mp completed
  obtain ⟨cxId, stateId, below, rfl⟩ := opens.result_of_offered offered
  have small : stateId < 256 := by
    rw [(has cxId).2] at below
    exact config.state_small below
  obtain ⟨info, found⟩ : ∃ info,
      (ledger.machine.cxMap cxId).stateInfo[stateId]? = some info := by
    rw [← (ledger.machine.cxMap cxId).stateInfo_length] at below
    exact ⟨_, List.getElem?_eq_getElem below⟩
  have foundAfter : (machine.cxMap cxId).stateInfo[stateId]? = some info := by
    rw [opens.stateInfo_eq]
    exact found
  have countBefore := (before cxId stateId info found).counter_eq
  have countAfter := (counts cxId stateId info foundAfter).counter_eq
  have isHeld : holds cxId stateId ⟨slotSel cxId stateId, cxShare⟩ = true :=
    (holds_slotSel cxId cxId cxShare small).mpr ⟨rfl, rfl⟩
  dsimp only at countAfter
  rw [if_neg (slotSel_ne_neg_one cxId stateId),
    List.filter_cons_of_pos isHeld, List.length_cons] at countAfter
  omega

/-- In a run whose closes are of live opens, the counters count throughout
exactly if no call hands out a state. -/
theorem countersCount_iff_handsOutNothing (cxus : σ)
    {calls : List (RuntimeCall σ)}
    (closesLive : Transition.EachStep (step platform) ClosesLive
      (init config cxus) calls) :
    Transition.Throughout (step platform) CountersCount (init config cxus)
        calls ↔
      Transition.EachStep (step platform) (HandsOutNothing platform)
        (init config cxus) calls := by
  constructor
  · apply Transition.eachStep_of_throughout
      (fun ledger => ledger.machine.cxMap.HasConfig config)
    · exact fun ledger called after has => step_hasConfig has
    · intro ledger called after has stepped before counts
      cases called with
      | cxOpen cxGuid cxShare userCxSel =>
          intro offered
          exact not_countersCount_of_offered has stepped offered before counts
      | cxClose => trivial
      | between => trivial
    · exact config.cxMap_hasConfig
  · intro handsOutNothing
    apply Transition.throughout_of_eachStep (Untaken config)
      (fun ledger => Untaken.countersCount) ?_ (untaken_init config cxus)
      (closesLive.and handsOutNothing)
    intro ledger called after untaken allowed stepped
    exact untaken.step allowed.1 allowed.2 stepped

/-- Opens of `addsub` keep the counters right, one of `mulacc` does not. -/
theorem countersCount_iff_handsOutNothing_mulacc :
    Transition.Throughout (step oneWordPlatform) CountersCount
        (init sourceConfig ())
        [.cxOpen cxGuidAddsub 0 0, .cxClose 0x10000001] ∧
      ¬Transition.Throughout (step oneWordPlatform) CountersCount
        (init sourceConfig ())
        [.cxOpen cxGuidAddsub 0 0, .cxOpen Mulacc.cxGuidMulacc 0 0,
          .cxClose 0x10000002] := by
  have stateless : ¬OffersState oneWordPlatform cxGuidAddsub
      (init sourceConfig ()).machine := by
    rintro ⟨cxId, stateId, _, _, found, free, _⟩
    have registered : sourceConfig.cxGuid 1 ≠ 0 := by decide
    cases found.symm.trans
      (sourceConfig.cxMap_hasConfig.findCxId_eq registered)
    cases free
  constructor
  · apply (countersCount_iff_handsOutNothing () _).mpr
    · intro opened isOpened
      cases isOpened
      exact ⟨stateless, fun closed _ => ⟨trivial, trivial⟩⟩
    · intro opened isOpened
      cases isOpened
      refine ⟨trivial, fun closed isClosed => ?_⟩
      cases isClosed
      exact ⟨⟨_, List.mem_cons_self, rfl⟩, trivial⟩
  · rw [countersCount_iff_handsOutNothing]
    · intro handsOutNothing
      obtain ⟨_, rest⟩ := handsOutNothing _ rfl
      obtain ⟨nothing, _⟩ := rest _ rfl
      exact nothing ⟨2, 0, _, _, rfl, rfl, rfl, by decide⟩
    · intro first isFirst
      cases isFirst
      refine ⟨trivial, fun second isSecond => ?_⟩
      cases isSecond
      refine ⟨trivial, fun closed isClosed => ?_⟩
      cases isClosed
      exact ⟨⟨_, List.mem_cons_self, rfl⟩, trivial⟩

/-- The first open of `mulacc` leaves the counter of its state at 0. -/
theorem first_open_not_counted :
    ¬Transition.Throughout (step oneWordPlatform) CountersCount
      (init sourceConfig ()) [.cxOpen Mulacc.cxGuidMulacc 0 0] := by
  intro throughout
  have counts := throughout.2 _ rfl
  have missed := (counts mulaccId 0 _ rfl).counter_eq
  exact absurd missed (by decide)

end ShareLedger

end CxRuntime
