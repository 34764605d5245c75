import CxRuntime.Runtime.Machine

/-!
# What `cx_open` leaves alone

`cx_open` switches `MCX_SELECTOR` to the context it initialises.  Every exit
restores it or has not switched it yet, except the one for an oversized state.
-/

namespace CxRuntime

variable {σ : Type}

def Platform.ReadStatusPure (platform : Platform σ) : Prop :=
  ∀ {cxSel cxus returned next},
    platform.cxReg cxSel 1023 0 0 cxus = some (returned, next) → next = cxus

/-- `cx_open` leaves the selection, and on failure the table and the contexts of
all CXUs, as they were. -/
def OpenFrame (platform : Platform σ) (cxGuid cxShare userCxSel : Word)
    (machine : Machine σ) : Prop :=
  ∀ {result next},
    cxOpen platform cxGuid cxShare userCxSel machine = some (result, next) →
    next.mcxSelector = machine.mcxSelector ∧
      (result = -1 → next.cxMap = machine.cxMap ∧ next.cxus = machine.cxus)

/-- The first free state of the CX reports more than 1023 words, and it is not
the selected one. -/
def OversizedElsewhere (platform : Platform σ) (cxGuid : Word)
    (machine : Machine σ) : Prop :=
  ∃ cxId stateId status read,
    findCxId machine.cxMap cxGuid = some cxId ∧
    (machine.cxMap cxId).firstFree = some stateId ∧
    (machine.cxSel (slotSel cxId stateId)).cxReadStatus platform =
      some (status, read) ∧
    getCxStateSize .uint status > 1023 ∧
    machine.mcxSelector ≠ slotSel cxId stateId

variable {platform : Platform σ} {cxGuid : Word} {machine next : Machine σ}

private theorem cxReadStatus_eq_self (pure : platform.ReadStatusPure)
    {status : Word}
    (read : machine.cxReadStatus platform = some (status, next)) :
    next = machine := by
  obtain ⟨⟨_, cxus⟩, executed, equality⟩ := Option.map_eq_some_iff.mp
    (Machine.cxReadStatus_eq_some read)
  cases equality
  rw [pure executed]

theorem not_openFrame_of_oversized
    (oversized : OversizedElsewhere platform cxGuid machine)
    (cxShare userCxSel : Word) :
    ¬OpenFrame platform cxGuid cxShare userCxSel machine := by
  intro frame
  obtain ⟨cxId, stateId, status, read, found, free, isRead, large, elsewhere⟩ :=
    oversized
  have completed : cxOpen platform cxGuid cxShare userCxSel machine =
      some (-1, read) := cxOpen_iff.mpr (.oversized found free isRead large)
  have switched : read.mcxSelector = slotSel cxId stateId :=
    (Machine.cxReadStatus_ran isRead).mcxSelector_eq
  exact elsewhere ((frame completed).1.symm.trans switched)

private theorem openFrame_of_not_oversized (pure : platform.ReadStatusPure)
    (sized : ¬OversizedElsewhere platform cxGuid machine)
    (cxShare userCxSel : Word) :
    OpenFrame platform cxGuid cxShare userCxSel machine := by
  intro result next completed
  cases cxOpen_iff.mp completed with
  | unknown => exact ⟨rfl, fun _ => ⟨rfl, rfl⟩⟩
  | stateless => exact ⟨rfl, fun _ => ⟨rfl, rfl⟩⟩
  | exhausted => exact ⟨rfl, fun _ => ⟨rfl, rfl⟩⟩
  | @oversized cxId stateId status read found free isRead large =>
      have selected : machine.mcxSelector = slotSel cxId stateId := by
        by_contra elsewhere
        exact sized ⟨cxId, stateId, status, next, found, free, isRead, large,
          elsewhere⟩
      rw [cxReadStatus_eq_self pure isRead]
      exact ⟨selected.symm, fun _ => ⟨rfl, rfl⟩⟩
  | opened => exact ⟨rfl, fun failed => absurd failed (slotSel_ne_neg_one _ _)⟩

/-- `cx_open` keeps its promise exactly if it does not take the exit for an
oversized state with another context selected. -/
theorem openFrame_iff_not_oversized (pure : platform.ReadStatusPure)
    (cxGuid cxShare userCxSel : Word) (machine : Machine σ) :
    OpenFrame platform cxGuid cxShare userCxSel machine ↔
      ¬OversizedElsewhere platform cxGuid machine :=
  ⟨fun frame oversized =>
      not_openFrame_of_oversized oversized cxShare userCxSel frame,
    fun sized => openFrame_of_not_oversized pure sized cxShare userCxSel⟩

/-- A CXU whose contexts all report 1024 words and that ignores writes. -/
def oversizedPlatform : Platform Unit :=
  { cxReg := fun _ _ _ _ cxus => some (some 0x400, cxus)
    cxInitial := CxCs.preclean.word
    getCxInitializer := fun _ => 0 }

/-- The oversized state of the selector itself. -/
theorem openFrame_iff_not_oversized_selected :
    (∃ next, cxOpen oversizedPlatform Mulacc.cxGuidMulacc 0 0
        ((cxInit sourceConfig ()).cxSel 0x10000002) = some (-1, next)) ∧
      OpenFrame oversizedPlatform Mulacc.cxGuidMulacc 0 0
        ((cxInit sourceConfig ()).cxSel 0x10000002) := by
  refine ⟨⟨_, rfl⟩, (openFrame_iff_not_oversized (fun _ => rfl) _ 0 0 _).mpr ?_⟩
  rintro ⟨cxId, stateId, _, _, found, free, _, _, elsewhere⟩
  have registered : sourceConfig.cxGuid 2 ≠ 0 := by decide
  cases found.symm.trans
    (sourceConfig.cxMap_hasConfig.findCxId_eq registered)
  have first : ((cxInit sourceConfig ()).cxMap 2).firstFree = some 0 := rfl
  cases free.symm.trans first
  exact elsewhere (by decide)

theorem open_moves_selector :
    ∃ next,
      cxOpen oversizedPlatform Mulacc.cxGuidMulacc 0 0
          (cxInit sourceConfig ()) = some (-1, next) ∧
        (cxInit sourceConfig ()).mcxSelector = 0 ∧
        next.mcxSelector = 0x10000002 ∧
        ¬OpenFrame oversizedPlatform Mulacc.cxGuidMulacc 0 0
          (cxInit sourceConfig ()) := by
  have registered : sourceConfig.cxGuid 2 ≠ 0 := by decide
  have found : findCxId (cxInit sourceConfig ()).cxMap Mulacc.cxGuidMulacc =
      some 2 := sourceConfig.cxMap_hasConfig.findCxId_eq registered
  have free : ((cxInit sourceConfig ()).cxMap 2).firstFree = some 0 := by rfl
  have large : getCxStateSize .uint 0x400 > 1023 := by decide
  refine ⟨_, cxOpen_iff.mpr (.oversized found free rfl large), rfl, by decide,
    not_openFrame_of_oversized ⟨2, 0, _, _, found, free, rfl, large, ?_⟩ 0 0⟩
  decide

end CxRuntime
