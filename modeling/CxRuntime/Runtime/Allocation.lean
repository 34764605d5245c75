import CxRuntime.Lib.Transition
import CxRuntime.Runtime.Machine

/-!
# Allocation of state contexts

Runs of `cx_open` and `cx_close` in which every closed selector belongs to a
live open.  The invariant ties the availability arrays to the selectors of the
live opens; exclusiveness, completeness and the order of allocation follow.
-/

namespace CxRuntime

variable {σ : Type}

/-- The runtime with the selectors of the live opens, newest first. -/
structure Ledger (σ : Type) where
  machine : Machine σ
  live : List Word

/-- One call, or a selection or instruction between two calls. -/
inductive OpenClose (platform : Platform σ) : Ledger σ → Ledger σ → Prop
  | opened {cxGuid cxShare userCxSel machine result next live} :
      StatusFits platform cxGuid machine →
      cxOpen platform cxGuid cxShare userCxSel machine = some (result, next) →
      result ≠ -1 →
      OpenClose platform ⟨machine, live⟩ ⟨next, result :: live⟩
  | refused {cxGuid cxShare userCxSel machine next live} :
      StatusFits platform cxGuid machine →
      cxOpen platform cxGuid cxShare userCxSel machine = some (-1, next) →
      OpenClose platform ⟨machine, live⟩ ⟨next, live⟩
  | closed {cxSel machine next live} : cxSel ∈ live →
      cxClose cxSel machine = some next →
      OpenClose platform ⟨machine, live⟩ ⟨next, live.erase cxSel⟩
  | used {machine next : Machine σ} {live} : next.cxMap = machine.cxMap →
      OpenClose platform ⟨machine, live⟩ ⟨next, live⟩

def OpenCloseReachable (platform : Platform σ) (config : CxConfig) (cxus : σ) :
    Ledger σ → Prop :=
  Relation.ReflTransGen (OpenClose platform) ⟨cxInit config cxus, []⟩

/-! ## The invariant -/

/-- Availability is the negation of being held by a live open. -/
structure AllocInv (config : CxConfig) (machine : Machine σ)
    (live : List Word) : Prop where
  hasConfig : machine.cxMap.HasConfig config
  avail_eq : ∀ {cxId stateId}, stateId < config.numStates cxId →
    (machine.cxMap cxId).availStateIds[stateId]? =
      some (if slotSel cxId stateId ∈ live then cxUnavailState
        else cxAvailState)
  live_form : ∀ cxSel ∈ live, ∃ cxId stateId, cxSel = slotSel cxId stateId ∧
    (stateId < config.numStates cxId ∨
      config.numStates cxId = 0 ∧ stateId = 0)
  once : ∀ {cxId stateId}, stateId < config.numStates cxId →
    live.count (slotSel cxId stateId) ≤ 1

variable {platform : Platform σ} {config : CxConfig} {machine next : Machine σ}
  {live : List Word}

theorem CxConfig.state_small (config : CxConfig) {cxId : Fin numCx}
    {stateId : Nat} (below : stateId < config.numStates cxId) : stateId < 256 :=
  Nat.lt_of_lt_of_le below (config.numStates_le cxId)

/-- Selectors of states are told apart by CX and state. -/
theorem CxConfig.slotSel_ne (config : CxConfig) {cxId other : Fin numCx}
    {stateId otherId : Nat} (below : stateId < config.numStates cxId)
    (otherBelow : otherId < config.numStates other)
    (different : ¬(cxId = other ∧ stateId = otherId)) :
    slotSel cxId stateId ≠ slotSel other otherId := fun equality =>
  different ((slotSel_inj (config.state_small below)
    (config.state_small otherBelow)).mp equality)

theorem CxConfig.slotSel_ne_stateless (config : CxConfig)
    {cxId other : Fin numCx} {stateId : Nat}
    (below : stateId < config.numStates cxId)
    (stateless : config.numStates other = 0) :
    slotSel cxId stateId ≠ slotSel other 0 := by
  intro equality
  have same := (slotSel_inj (config.state_small below) (by decide)).mp equality
  rw [same.1, stateless] at below
  exact Nat.not_lt_zero _ below

theorem allocInv_init (config : CxConfig) (cxus : σ) :
    AllocInv config (cxInit config cxus) [] where
  hasConfig := config.cxMap_hasConfig
  avail_eq := by
    intro cxId stateId below
    rw [if_neg List.not_mem_nil]
    exact List.getElem?_replicate_of_lt below
  live_form := fun _ member => absurd member List.not_mem_nil
  once := fun _ => Nat.zero_le 1

namespace AllocInv

theorem numStates_eq (inv : AllocInv config machine live) (cxId : Fin numCx) :
    (machine.cxMap cxId).numStates = config.numStates cxId :=
  (inv.hasConfig cxId).2

theorem of_cxMap_eq (inv : AllocInv config machine live)
    (same : next.cxMap = machine.cxMap) : AllocInv config next live := by
  refine ⟨?_, ?_, inv.live_form, inv.once⟩
  · rw [same]
    exact inv.hasConfig
  · intro cxId stateId below
    rw [same]
    exact inv.avail_eq below

theorem available_iff (inv : AllocInv config machine live) {cxId : Fin numCx}
    {stateId : Nat} (below : stateId < config.numStates cxId) :
    (machine.cxMap cxId).availStateIds[stateId]? = some cxAvailState ↔
      slotSel cxId stateId ∉ live := by
  rw [inv.avail_eq below]
  by_cases held : slotSel cxId stateId ∈ live
  · rw [if_pos held]
    exact iff_of_false (by decide) (fun free => free held)
  · rw [if_neg held]
    exact iff_of_true rfl held

private theorem unavailable_iff (inv : AllocInv config machine live)
    {cxId : Fin numCx} {stateId : Nat}
    (below : stateId < config.numStates cxId) :
    (machine.cxMap cxId).availStateIds[stateId]? = some cxUnavailState ↔
      slotSel cxId stateId ∈ live := by
  rw [inv.avail_eq below]
  by_cases held : slotSel cxId stateId ∈ live
  · rw [if_pos held]
    exact iff_of_true rfl held
  · rw [if_neg held]
    exact iff_of_false (by decide) held

theorem open_stateless (inv : AllocInv config machine live) {cxId : Fin numCx}
    (stateless : config.numStates cxId = 0) :
    AllocInv config machine (slotSel cxId 0 :: live) := by
  have apart : ∀ {other stateId}, stateId < config.numStates other →
      slotSel other stateId ≠ slotSel cxId 0 :=
    fun below => config.slotSel_ne_stateless below stateless
  refine ⟨inv.hasConfig, ?_, ?_, ?_⟩
  · intro other stateId below
    rw [inv.avail_eq below]
    simp only [List.mem_cons, apart below, false_or]
  · intro cxSel member
    rcases List.mem_cons.mp member with rfl | earlier
    · exact ⟨cxId, 0, rfl, Or.inr ⟨stateless, rfl⟩⟩
    · exact inv.live_form cxSel earlier
  · intro other stateId below
    rw [List.count_cons_of_ne (apart below).symm]
    exact inv.once below

/-- Allocating or freeing one state moves its selector and no other. -/
theorem avail_eq_of_allocates (inv : AllocInv config machine live)
    {cxId : Fin numCx} {stateId : Nat}
    (below : stateId < config.numStates cxId) {entry : CxEntry} {value : Word}
    (allocates : (machine.cxMap cxId).Allocates entry stateId value)
    (updated : next.cxMap = Function.update machine.cxMap cxId entry)
    {changed : List Word}
    (valueEq : value =
      if slotSel cxId stateId ∈ changed then cxUnavailState else cxAvailState)
    (others : ∀ cxSel, cxSel ≠ slotSel cxId stateId →
      (cxSel ∈ changed ↔ cxSel ∈ live))
    {other : Fin numCx} {otherId : Nat}
    (otherBelow : otherId < config.numStates other) :
    (next.cxMap other).availStateIds[otherId]? =
      some (if slotSel other otherId ∈ changed then cxUnavailState
        else cxAvailState) := by
  rw [updated]
  by_cases same : other = cxId ∧ otherId = stateId
  · obtain ⟨rfl, rfl⟩ := same
    rw [Function.update_self, ← valueEq]
    exact allocates.avail_same (inv.numStates_eq other ▸ below)
  · have apart := config.slotSel_ne otherBelow below same
    simp only [others _ apart]
    rw [← inv.avail_eq otherBelow]
    exact CxMap.avail_update_of_ne allocates same

private theorem take (inv : AllocInv config machine live) {cxId : Fin numCx}
    {stateId : Nat} (free : (machine.cxMap cxId).firstFree = some stateId)
    {entry : CxEntry}
    (allocates :
      (machine.cxMap cxId).Allocates entry stateId cxUnavailState)
    (updated : next.cxMap = Function.update machine.cxMap cxId entry) :
    AllocInv config next (slotSel cxId stateId :: live) := by
  have below : stateId < config.numStates cxId := by
    rw [← inv.numStates_eq]
    exact CxEntry.firstFree_lt free
  have fresh : slotSel cxId stateId ∉ live :=
    (inv.available_iff below).mp (CxEntry.firstFree_eq_some_iff.mp free).1
  refine ⟨?_, ?_, ?_, ?_⟩
  · rw [updated]
    exact inv.hasConfig.update allocates
  · apply inv.avail_eq_of_allocates below allocates updated
    · rw [if_pos List.mem_cons_self]
    · intro cxSel apart
      simp only [List.mem_cons, apart, false_or]
  · intro cxSel member
    rcases List.mem_cons.mp member with rfl | earlier
    · exact ⟨cxId, stateId, rfl, Or.inl below⟩
    · exact inv.live_form cxSel earlier
  · intro other otherId otherBelow
    by_cases same : other = cxId ∧ otherId = stateId
    · obtain ⟨rfl, rfl⟩ := same
      rw [List.count_cons_self, List.count_eq_zero.mpr fresh]
    · have apart := config.slotSel_ne otherBelow below same
      rw [List.count_cons_of_ne apart.symm]
      exact inv.once otherBelow

private theorem close_stateless (inv : AllocInv config machine live)
    {cxId : Fin numCx} (stateless : config.numStates cxId = 0) :
    AllocInv config machine (live.erase (slotSel cxId 0)) := by
  have apart : ∀ {other stateId}, stateId < config.numStates other →
      slotSel other stateId ≠ slotSel cxId 0 :=
    fun below => config.slotSel_ne_stateless below stateless
  refine ⟨inv.hasConfig, ?_, ?_, ?_⟩
  · intro other stateId below
    rw [inv.avail_eq below]
    simp only [List.mem_erase_of_ne (apart below)]
  · exact fun cxSel member => inv.live_form cxSel (List.mem_of_mem_erase member)
  · intro other stateId below
    exact Nat.le_trans (List.erase_sublist.count_le _) (inv.once below)

private theorem release (inv : AllocInv config machine live) {cxId : Fin numCx}
    {stateId : Nat} (below : stateId < config.numStates cxId)
    {entry : CxEntry}
    (allocates : (machine.cxMap cxId).Allocates entry stateId cxAvailState)
    (updated : next.cxMap = Function.update machine.cxMap cxId entry) :
    AllocInv config next (live.erase (slotSel cxId stateId)) := by
  have gone : slotSel cxId stateId ∉ live.erase (slotSel cxId stateId) := by
    rw [← List.count_eq_zero, List.count_erase_self]
    have atMost := inv.once below
    omega
  refine ⟨?_, ?_, ?_, ?_⟩
  · rw [updated]
    exact inv.hasConfig.update allocates
  · apply inv.avail_eq_of_allocates below allocates updated
    · rw [if_neg gone]
    · intro cxSel apart
      exact List.mem_erase_of_ne apart
  · exact fun cxSel member => inv.live_form cxSel (List.mem_of_mem_erase member)
  · intro other otherId otherBelow
    exact Nat.le_trans (List.erase_sublist.count_le _) (inv.once otherBelow)

theorem close (inv : AllocInv config machine live) {cxSel : Word}
    (member : cxSel ∈ live) :
    ∃ next, cxClose cxSel machine = some next ∧
      AllocInv config next (live.erase cxSel) := by
  obtain ⟨cxId, stateId, rfl, below | ⟨stateless, rfl⟩⟩ :=
    inv.live_form cxSel member
  · obtain ⟨entry, allocates, closed⟩ := cxClose_stateful
      (inv.numStates_eq cxId ▸ below) (config.state_small below)
    exact ⟨_, closed, inv.release below allocates rfl⟩
  · exact ⟨machine,
      cxClose_stateless 0 ((inv.numStates_eq cxId).trans stateless),
      inv.close_stateless stateless⟩

/-- An open that returns a selector adds it to the live ones; one that returns
`-1` leaves the table as it is. -/
theorem opens (inv : AllocInv config machine live) {cxGuid result : Word}
    (fits : StatusFits platform cxGuid machine)
    (outcome : Opens platform cxGuid machine result next) :
    (result = -1 ∧ AllocInv config next live) ∨
      (result ≠ -1 ∧ AllocInv config next (result :: live)) := by
  cases outcome with
  | unknown => exact Or.inl ⟨rfl, inv⟩
  | @stateless cxId _ stateless =>
      exact Or.inr ⟨slotSel_ne_neg_one cxId 0,
        inv.open_stateless ((inv.numStates_eq cxId).symm.trans stateless)⟩
  | exhausted => exact Or.inl ⟨rfl, inv⟩
  | oversized found free isRead large =>
      exact absurd large (fits found free isRead)
  | @opened cxId stateId _ _ _ ready _ free isRead _ isTaken isReady =>
      obtain ⟨entry, allocates, updated⟩ := opened_cxMap isRead isTaken isReady
      have taken : AllocInv config (ready.cxSel machine.mcxSelector)
          (slotSel cxId stateId :: live) := inv.take free allocates updated
      exact Or.inr ⟨slotSel_ne_neg_one cxId stateId, taken⟩

end AllocInv

theorem allocInv_step {ledger after : Ledger σ}
    (inv : AllocInv config ledger.machine ledger.live)
    (step : OpenClose platform ledger after) :
    AllocInv config after.machine after.live := by
  cases step with
  | opened fits completed succeeded =>
      rcases inv.opens fits (cxOpen_iff.mp completed) with
        ⟨failed, _⟩ | ⟨_, next⟩
      · exact absurd failed succeeded
      · exact next
  | refused fits completed =>
      rcases inv.opens fits (cxOpen_iff.mp completed) with
        ⟨_, next⟩ | ⟨succeeded, _⟩
      · exact next
      · exact absurd rfl succeeded
  | closed member completed =>
      obtain ⟨next, closed, nextInv⟩ := inv.close member
      cases closed.symm.trans completed
      exact nextInv
  | used same => exact inv.of_cxMap_eq same

theorem allocInv_of_reachable {cxus : σ} {ledger : Ledger σ}
    (reachable : OpenCloseReachable platform config cxus ledger) :
    AllocInv config ledger.machine ledger.live :=
  Transition.invariant_of_reachable
    (fun ledger => AllocInv config ledger.machine ledger.live)
    (allocInv_init config cxus) (fun _ _ => allocInv_step) reachable

/-! ## Exclusive and complete allocation -/

/-- Some live open has a selector of this CX and state. -/
def Holds (live : List Word) (cxId stateId : Nat) : Prop :=
  ∃ cxSel ∈ live, (getCxId .int cxSel).toNat = cxId ∧
    (getCxState .int cxSel).toNat = stateId

/-- The selector belongs to a CX with states. -/
def CxConfig.isStateful (config : CxConfig) (cxSel : Word) : Bool :=
  if inTable : (getCxId .int cxSel).toNat < numCx then
    config.numStates ⟨_, inTable⟩ ≠ 0
  else false

/-- What the runtime guarantees about a table and the live opens. -/
structure AllocationGuarantees (platform : Platform σ) (config : CxConfig)
    (machine : Machine σ) (live : List Word) : Prop where
  unavailable_iff_held : ∀ {cxId stateId}, stateId < config.numStates cxId →
    ((machine.cxMap cxId).availStateIds[stateId]? = some cxUnavailState ↔
      Holds live cxId stateId)
  exclusive : (live.filter config.isStateful).Pairwise fun left right =>
    left ≠ right ∧
      ¬(getCxId .int left = getCxId .int right ∧
        getCxState .int left = getCxState .int right)
  open_stateful : ∀ {cxId}, config.cxGuid cxId ≠ 0 →
    config.numStates cxId ≠ 0 →
    StatusFits platform (config.cxGuid cxId) machine →
    ∀ {cxShare userCxSel result next},
      cxOpen platform (config.cxGuid cxId) cxShare userCxSel machine =
        some (result, next) →
      (result = -1 ↔
        ∀ stateId, stateId < config.numStates cxId → Holds live cxId stateId) ∧
      (result ≠ -1 → 0 < result.toInt ∧
        (getCxId .int result).toNat = cxId ∧
        (getCxState .int result).toNat < config.numStates cxId ∧
        ¬Holds live cxId (getCxState .int result).toNat ∧
        ∀ lower, lower < (getCxState .int result).toNat →
          Holds live cxId lower)
  open_stateless : ∀ {cxId}, config.cxGuid cxId ≠ 0 →
    config.numStates cxId = 0 →
    0 < (slotSel cxId 0).toInt ∧ ∀ cxShare userCxSel,
      cxOpen platform (config.cxGuid cxId) cxShare userCxSel machine =
        some (slotSel cxId 0, machine)
  open_returns : ∀ {cxId}, config.cxGuid cxId ≠ 0 →
    (∀ stateId, stateId < config.numStates cxId →
      platform.AnswersAt (slotSel cxId stateId)) →
    ∀ cxShare userCxSel, ∃ result next,
      cxOpen platform (config.cxGuid cxId) cxShare userCxSel machine =
        some (result, next)
  close_returns : ∀ cxSel ∈ live, ∃ next, cxClose cxSel machine = some next

namespace AllocInv

theorem holds_iff (inv : AllocInv config machine live) {cxId : Fin numCx}
    {stateId : Nat} (below : stateId < config.numStates cxId) :
    Holds live cxId stateId ↔ slotSel cxId stateId ∈ live := by
  constructor
  · intro holds
    obtain ⟨cxSel, member, sameId, sameState⟩ := holds
    obtain ⟨other, otherId, rfl, form⟩ := inv.live_form cxSel member
    rw [getCxId_slotSel] at sameId
    obtain rfl := Fin.ext sameId
    have otherBelow : otherId < config.numStates other := by
      rcases form with otherBelow | ⟨stateless, _⟩
      · exact otherBelow
      · rw [stateless] at below
        exact absurd below (Nat.not_lt_zero _)
    rw [getCxState_slotSel .int other (config.state_small otherBelow)]
      at sameState
    rwa [← sameState]
  · intro member
    exact ⟨_, member, getCxId_slotSel .int cxId stateId,
      getCxState_slotSel .int cxId (config.state_small below)⟩

theorem exclusive (inv : AllocInv config machine live) :
    (live.filter config.isStateful).Pairwise fun left right =>
      left ≠ right ∧
        ¬(getCxId .int left = getCxId .int right ∧
          getCxState .int left = getCxState .int right) := by
  have stateful_form : ∀ cxSel ∈ live.filter config.isStateful,
      ∃ cxId stateId, stateId < config.numStates cxId ∧
        cxSel = slotSel cxId stateId := by
    intro cxSel member
    obtain ⟨isLive, stateful⟩ := List.mem_filter.mp member
    obtain ⟨cxId, stateId, rfl, below | ⟨stateless, _⟩⟩ :=
      inv.live_form cxSel isLive
    · exact ⟨cxId, stateId, below, rfl⟩
    · have sameId := getCxId_slotSel .int cxId stateId
      simp [CxConfig.isStateful, sameId, stateless] at stateful
  have nodup : (live.filter config.isStateful).Nodup := by
    rw [List.nodup_iff_count_le_one]
    intro cxSel
    by_cases member : cxSel ∈ live.filter config.isStateful
    · obtain ⟨cxId, stateId, below, rfl⟩ := stateful_form cxSel member
      exact Nat.le_trans (List.filter_sublist.count_le _) (inv.once below)
    · rw [List.count_eq_zero.mpr member]
      exact Nat.zero_le 1
  apply nodup.imp_of_mem
  intro left right leftMember rightMember different
  refine ⟨different, ?_⟩
  intro same
  obtain ⟨sameId, sameState⟩ := same
  obtain ⟨leftId, leftState, leftBelow, rfl⟩ := stateful_form left leftMember
  obtain ⟨rightId, rightState, rightBelow, rfl⟩ :=
    stateful_form right rightMember
  have idEq := congrArg BitVec.toNat sameId
  have stateEq := congrArg BitVec.toNat sameState
  rw [getCxId_slotSel, getCxId_slotSel] at idEq
  rw [getCxState_slotSel .int leftId (config.state_small leftBelow),
    getCxState_slotSel .int rightId (config.state_small rightBelow)] at stateEq
  exact different (by rw [Fin.ext idEq, stateEq])

theorem open_stateful (inv : AllocInv config machine live) {cxId : Fin numCx}
    (registered : config.cxGuid cxId ≠ 0)
    (stateful : config.numStates cxId ≠ 0) {result : Word}
    (fits : StatusFits platform (config.cxGuid cxId) machine)
    (opens : Opens platform (config.cxGuid cxId) machine result next) :
    (result = -1 ∧
        ∀ stateId, stateId < config.numStates cxId → Holds live cxId stateId) ∨
      ∃ stateId, result = slotSel cxId stateId ∧
        stateId < config.numStates cxId ∧ ¬Holds live cxId stateId ∧
        ∀ lower, lower < stateId → Holds live cxId lower := by
  have only : ∀ {other},
      findCxId machine.cxMap (config.cxGuid cxId) = some other → other = cxId :=
    fun found => Option.some.inj
      (found.symm.trans (inv.hasConfig.findCxId_eq registered))
  have held_of_unavailable : ∀ {stateId}, stateId < config.numStates cxId →
      (machine.cxMap cxId).availStateIds[stateId]? ≠ some cxAvailState →
      Holds live cxId stateId := by
    intro stateId below unavailable
    rw [inv.holds_iff below]
    by_contra free
    exact unavailable ((inv.available_iff below).mpr free)
  cases opens with
  | unknown absent =>
      rw [inv.hasConfig.findCxId_eq registered] at absent
      cases absent
  | stateless found stateless =>
      obtain rfl := only found
      exact absurd ((inv.numStates_eq _).symm.trans stateless) stateful
  | exhausted found _ full =>
      obtain rfl := only found
      exact Or.inl ⟨rfl, fun stateId below => held_of_unavailable below
        (CxEntry.firstFree_eq_none_iff.mp full stateId)⟩
  | oversized found free isRead large =>
      exact absurd large (fits found free isRead)
  | @opened _ stateId _ _ _ _ found free =>
      obtain rfl := only found
      obtain ⟨available, earliest⟩ := CxEntry.firstFree_eq_some_iff.mp free
      have below := CxEntry.firstFree_lt free
      rw [inv.numStates_eq] at below
      refine Or.inr ⟨stateId, rfl, below, ?_, ?_⟩
      · rw [inv.holds_iff below]
        exact (inv.available_iff below).mp available
      · exact fun lower lowerLt => held_of_unavailable (lowerLt.trans below)
          (earliest lower lowerLt)

private theorem guarantees (inv : AllocInv config machine live) :
    AllocationGuarantees platform config machine live where
  unavailable_iff_held := by
    intro cxId stateId below
    rw [inv.unavailable_iff below, inv.holds_iff below]
  exclusive := inv.exclusive
  open_stateful := by
    intro cxId registered stateful fits _ _ result next completed
    rcases inv.open_stateful registered stateful fits (cxOpen_iff.mp completed)
      with ⟨rfl, allHeld⟩ | ⟨stateId, rfl, below, free, earlier⟩
    · exact ⟨iff_of_true rfl allHeld, fun succeeded => absurd rfl succeeded⟩
    · rw [getCxState_slotSel .int cxId (config.state_small below)]
      refine ⟨iff_of_false (slotSel_ne_neg_one cxId stateId)
        (fun allHeld => free (allHeld stateId below)), fun _ => ?_⟩
      exact ⟨slotSel_pos cxId stateId, getCxId_slotSel .int cxId stateId, below,
        free, earlier⟩
  open_stateless := by
    intro cxId registered stateless
    refine ⟨slotSel_pos cxId 0, fun cxShare userCxSel => ?_⟩
    exact cxOpen_stateless cxShare userCxSel
      (inv.hasConfig.findCxId_eq registered)
      ((inv.numStates_eq cxId).trans stateless)
  open_returns := by
    intro cxId registered answers cxShare userCxSel
    have found := inv.hasConfig.findCxId_eq registered
    by_cases stateless : (machine.cxMap cxId).numStates = 0
    · exact ⟨_, _, cxOpen_stateless cxShare userCxSel found stateless⟩
    cases free : (machine.cxMap cxId).firstFree with
    | none =>
        exact ⟨_, _, cxOpen_exhausted cxShare userCxSel found stateless free⟩
    | some stateId =>
        have below := CxEntry.firstFree_lt free
        rw [inv.numStates_eq] at below
        exact cxOpen_total found free (answers stateId below) cxShare userCxSel
  close_returns := by
    intro cxSel member
    obtain ⟨next, closed, _⟩ := inv.close member
    exact ⟨next, closed⟩

end AllocInv

/-- After every run of opens and closes, allocation is exclusive and complete. -/
theorem allocation_exclusive_and_complete {cxus : σ} {ledger : Ledger σ}
    (reachable : OpenCloseReachable platform config cxus ledger) :
    AllocationGuarantees platform config ledger.machine ledger.live :=
  (allocInv_of_reachable reachable).guarantees

/-- A CXU whose contexts all report one word and that ignores writes. -/
def oneWordPlatform : Platform Unit :=
  { cxReg := fun _ _ _ _ cxus => some (some 1, cxus)
    cxInitial := CxCs.preclean.word
    getCxInitializer := fun _ => 0 }

private theorem oneWordPlatform_fits (cxGuid : Word) (machine : Machine Unit) :
    StatusFits oneWordPlatform cxGuid machine := by
  intro _ _ _ _ _ _ isRead
  cases isRead
  decide

/-- Two live opens, a refused one, and the state of a closed one again. -/
def ReusesState (one two closed three : Machine Unit) : Prop :=
  cxOpen oneWordPlatform Mulacc.cxGuidMulacc 0 0 (cxInit sourceConfig ()) =
      some (0x10000002, one) ∧
    cxOpen oneWordPlatform Mulacc.cxGuidMulacc 0 0 one =
      some (0x10010002, two) ∧
    cxOpen oneWordPlatform Mulacc.cxGuidMulacc 0 0 two = some (-1, two) ∧
    cxClose 0x10000002 two = some closed ∧
    cxOpen oneWordPlatform Mulacc.cxGuidMulacc 0 0 closed =
      some (0x10000002, three)

theorem allocation_exclusive_and_complete_reuse :
    ∃ one two closed three, ReusesState one two closed three ∧
      AllocationGuarantees oneWordPlatform sourceConfig three
        [0x10000002, 0x10010002] := by
  obtain ⟨one, two, closed, three, run⟩ :
      ∃ one two closed three, ReusesState one two closed three :=
    ⟨_, _, _, _, rfl, rfl, rfl, rfl, rfl⟩
  refine ⟨one, two, closed, three, run, ?_⟩
  obtain ⟨first, second, refused, isClosed, third⟩ := run
  have fits := oneWordPlatform_fits Mulacc.cxGuidMulacc
  exact allocation_exclusive_and_complete (.tail (.tail (.tail (.tail (.single
    (.opened (fits _) first (by decide)))
    (.opened (fits _) second (by decide)))
    (.refused (fits _) refused))
    (.closed (by decide) isClosed))
    (.opened (fits _) third (by decide)))

end CxRuntime
