import CxRuntime.Runtime.Sharing

/-!
# The runtime as an allocator

Seen from its callers the runtime remembers one thing: which selectors are in
use.  An open takes the lowest state of its CX that is not in use, and a close
gives it back.  The availability arrays, the initialisation of contexts and
whatever programs do to the CXUs between two calls never show in an answer.
-/

namespace CxRuntime

variable {σ : Type}

/-! ## The allocator -/

namespace CxConfig

variable (config : CxConfig)

/-- The selector that an open takes while those of `live` are in use. -/
def grant (live : List Word) (cxGuid : Word) : Option Word :=
  (findCxId config.cxMap cxGuid).bind fun cxId =>
    if config.numStates cxId = 0 then some (slotSel cxId 0)
    else
      ((List.range (config.numStates cxId)).find? fun stateId =>
        slotSel cxId stateId ∉ live).map (slotSel cxId)

/-- A call on the selectors in use; only those can be closed. -/
def account (live : List Word) :
    RuntimeCall σ → Option (List Word × Option Word)
  | .cxOpen cxGuid _ _ =>
      some ((config.grant live cxGuid).toList ++ live,
        some ((config.grant live cxGuid).getD (-1)))
  | .cxClose cxSel =>
      if cxSel ∈ live then some (live.erase cxSel, none) else none
  | .between _ _ _ => some (live, none)

end CxConfig

/-! ## The runtime -/

/-- A call of the runtime with the value that `cx_open` returns. -/
def Machine.serve (platform : Platform σ) (machine : Machine σ) :
    RuntimeCall σ → Option (Machine σ × Option Word)
  | .cxOpen cxGuid cxShare userCxSel =>
      (cxOpen platform cxGuid cxShare userCxSel machine).map
        fun answer => (answer.2, some answer.1)
  | .cxClose cxSel => (cxClose cxSel machine).map fun next => (next, none)
  | .between mcxSelector cxStatus cxus =>
      some
        ({ machine with
            mcxSelector := mcxSelector
            cxStatus := cxStatus
            cxus := cxus }, none)

def RuntimeCall.Keeps (holds : σ → Prop) : RuntimeCall σ → Prop
  | .between _ _ cxus => holds cxus
  | _ => True

/-- The contexts answer `cx_open`: under an invariant that every instruction
keeps, each state of the table reports a size that it accepts. -/
structure Platform.Serves (platform : Platform σ) (config : CxConfig)
    (holds : σ → Prop) : Prop where
  preserved : ∀ {cxSel cfId rs1 rs2 cxus returned after}, holds cxus →
    platform.cxReg cxSel cfId rs1 rs2 cxus = some (returned, after) →
    holds after
  answers : ∀ {cxId stateId}, stateId < config.numStates cxId →
    platform.AnswersAt (slotSel cxId stateId)
  sized : ∀ {cxId stateId}, stateId < config.numStates cxId →
    ∀ {cxus status after}, holds cxus →
    platform.cxReg (slotSel cxId stateId) 1023 0 0 cxus =
      some (some status, after) →
    ¬getCxStateSize .uint status > 1023

variable {platform : Platform σ} {config : CxConfig} {holds : σ → Prop}
  {machine next : Machine σ} {live : List Word}

/-! ## One call -/

private theorem CxMap.HasConfig.findCxId_congr {left right : CxMap}
    (leftHas : left.HasConfig config) (rightHas : right.HasConfig config)
    (cxGuid : Word) : findCxId left cxGuid = findCxId right cxGuid := by
  simp only [findCxId_eq_find?, (leftHas _).1, (rightHas _).1]

theorem CxConfig.grant_ne_neg_one {cxGuid cxSel : Word}
    (granted : config.grant live cxGuid = some cxSel) : cxSel ≠ -1 := by
  obtain ⟨cxId, _, taken⟩ := Option.bind_eq_some_iff.mp granted
  split at taken
  · cases taken
    exact slotSel_ne_neg_one cxId 0
  · obtain ⟨stateId, _, rfl⟩ := Option.map_eq_some_iff.mp taken
    exact slotSel_ne_neg_one cxId stateId

namespace AllocInv

theorem firstFree_eq (inv : AllocInv config machine live) (cxId : Fin numCx) :
    (machine.cxMap cxId).firstFree =
      (List.range (config.numStates cxId)).find? fun stateId =>
        slotSel cxId stateId ∉ live := by
  apply Option.ext
  intro stateId
  rw [CxEntry.firstFree_eq_some_iff, List.find?_range_eq_some]
  simp only [decide_eq_true_eq, List.mem_range, Bool.not_eq_true',
    decide_eq_false_iff_not, not_not]
  constructor
  · intro first
    obtain ⟨available, earliest⟩ := first
    have below := CxEntry.avail_lt available
    rw [inv.numStates_eq] at below
    refine ⟨(inv.available_iff below).mp available, below, ?_⟩
    intro earlier earlierLt
    by_contra free
    exact earliest earlier earlierLt
      ((inv.available_iff (earlierLt.trans below)).mpr free)
  · intro first
    obtain ⟨free, below, earliest⟩ := first
    refine ⟨(inv.available_iff below).mpr free, ?_⟩
    intro earlier earlierLt available
    exact (inv.available_iff (earlierLt.trans below)).mp available
      (earliest earlier earlierLt)

theorem statusFits (inv : AllocInv config machine live)
    (serves : platform.Serves config holds) (held : holds machine.cxus)
    (cxGuid : Word) : StatusFits platform cxGuid machine := by
  intro cxId stateId status read found free isRead
  have below := CxEntry.firstFree_lt free
  rw [inv.numStates_eq] at below
  have answered := Machine.cxReg_eq_some (Machine.cxReadStatus_eq_some isRead)
  exact serves.sized below held answered

theorem open_granted (inv : AllocInv config machine live)
    (serves : platform.Serves config holds) (held : holds machine.cxus)
    (cxGuid cxShare userCxSel : Word) :
    ∃ next, cxOpen platform cxGuid cxShare userCxSel machine =
      some ((config.grant live cxGuid).getD (-1), next) := by
  have lookup := inv.hasConfig.findCxId_congr config.cxMap_hasConfig cxGuid
  cases found : findCxId config.cxMap cxGuid with
  | none =>
      rw [CxConfig.grant, found]
      exact ⟨machine, cxOpen_iff.mpr (.unknown (lookup.trans found))⟩
  | some cxId =>
      have isFound := lookup.trans found
      simp only [CxConfig.grant, found, Option.bind_some]
      by_cases stateless : config.numStates cxId = 0
      · rw [if_pos stateless]
        exact ⟨machine, cxOpen_stateless cxShare userCxSel isFound
          ((inv.numStates_eq cxId).trans stateless)⟩
      rw [if_neg stateless, ← inv.firstFree_eq]
      cases free : (machine.cxMap cxId).firstFree with
      | none =>
          rw [← inv.numStates_eq] at stateless
          exact ⟨machine,
            cxOpen_exhausted cxShare userCxSel isFound stateless free⟩
      | some stateId =>
          have below := CxEntry.firstFree_lt free
          rw [inv.numStates_eq] at below
          obtain ⟨result, next, completed⟩ := cxOpen_total isFound free
            (serves.answers below) cxShare userCxSel
          have resultEq := (cxOpen_iff.mp completed).result_of_free
            (inv.statusFits serves held cxGuid) isFound free
          rw [resultEq] at completed
          exact ⟨next, completed⟩

theorem opened (inv : AllocInv config machine live)
    (serves : platform.Serves config holds) (held : holds machine.cxus)
    {cxGuid cxShare userCxSel : Word}
    (completed : cxOpen platform cxGuid cxShare userCxSel machine =
      some ((config.grant live cxGuid).getD (-1), next)) :
    AllocInv config next ((config.grant live cxGuid).toList ++ live) ∧
      holds next.cxus := by
  have outcome := cxOpen_iff.mp completed
  constructor
  · have moved := inv.opens (inv.statusFits serves held cxGuid) outcome
    cases granted : config.grant live cxGuid with
    | none =>
        rw [granted] at moved
        rcases moved with ⟨_, kept⟩ | ⟨succeeded, _⟩
        · exact kept
        · exact absurd rfl succeeded
    | some cxSel =>
        rw [granted] at moved
        rcases moved with ⟨failed, _⟩ | ⟨_, kept⟩
        · exact absurd failed (CxConfig.grant_ne_neg_one granted)
        · exact kept
  · exact outcome.invariant holds (fun _ _ => serves.preserved) held

end AllocInv

/-! ## Runs -/

def Accounted (config : CxConfig) (holds : σ → Prop) (machine : Machine σ)
    (live : List Word) : Prop :=
  AllocInv config machine live ∧ holds machine.cxus

private theorem serve_account (serves : platform.Serves config holds)
    (accounted : Accounted config holds machine live) {call : RuntimeCall σ}
    (kept : call.Keeps holds) {moved : List Word × Option Word}
    (taken : config.account live call = some moved) :
    ∃ next, machine.serve platform call = some (next, moved.2) ∧
      Accounted config holds next moved.1 := by
  obtain ⟨inv, held⟩ := accounted
  cases call with
  | cxOpen cxGuid cxShare userCxSel =>
      cases taken
      obtain ⟨next, completed⟩ :=
        inv.open_granted serves held cxGuid cxShare userCxSel
      refine ⟨next, ?_, inv.opened serves held completed⟩
      simp only [Machine.serve, completed, Option.map_some]
  | cxClose cxSel =>
      simp only [CxConfig.account] at taken
      split at taken
      · cases taken
        obtain ⟨next, closed, nextInv⟩ := inv.close ‹_›
        refine ⟨next, ?_, nextInv, ?_⟩
        · simp only [Machine.serve, closed, Option.map_some]
        · rcases cxClose_cases closed with rfl | ⟨_, _, _, _, rfl⟩ <;>
            exact held
      · cases taken
  | between =>
      cases taken
      exact ⟨_, rfl, inv.of_cxMap_eq rfl, kept⟩

/-- Every run of the allocator is a run of the runtime: all calls return, the
opens with the selectors that the allocator grants, and at the end the available
states are those that the allocator does not have in use. -/
theorem runtime_refines_allocator (serves : platform.Serves config holds)
    {cxus : σ} (initial : holds cxus) {calls : List (RuntimeCall σ)}
    (kept : ∀ call ∈ calls, call.Keeps holds)
    {replies : List (Option Word)}
    (taken : Transition.run config.account [] calls = some (live, replies)) :
    ∃ final,
      Transition.run (Machine.serve platform) (cxInit config cxus) calls =
        some (final, replies) ∧
      ∀ {cxId stateId}, stateId < config.numStates cxId →
        ((final.cxMap cxId).availStateIds[stateId]? = some cxAvailState ↔
          slotSel cxId stateId ∉ live) := by
  have start : Accounted config holds (cxInit config cxus) [] :=
    ⟨allocInv_init config cxus, initial⟩
  obtain ⟨final, ran, inv, _⟩ := Transition.run_simulates
    (Accounted config holds)
    (fun accounted member => serve_account serves accounted (kept _ member))
    start taken
  exact ⟨final, ran, inv.available_iff⟩

/-! ## mulacc -/

variable {ρ : Type} {others : Platform ρ}

theorem sourceConfig_stateful {cxId : Fin numCx} {stateId : Nat}
    (below : stateId < sourceConfig.numStates cxId) : cxId = mulaccId := by
  have stateless : ∀ cxId, cxId ≠ mulaccId →
      sourceConfig.numStates cxId = 0 := by
    decide
  by_contra other
  rw [stateless cxId other] at below
  exact Nat.not_lt_zero stateId below

/-- mulacc serves the table of `cx_init`, whatever the other CXUs are. -/
theorem mulaccPlatform_serves :
    (mulaccPlatform others).Serves sourceConfig MulaccSettled := by
  refine ⟨mulaccPlatform_settled, ?_, ?_⟩
  · intro cxId stateId below
    obtain rfl := sourceConfig_stateful below
    exact mulacc_answersAt ⟨stateId, below⟩
  · intro cxId stateId below cxus status after settled answered
    obtain rfl := sourceConfig_stateful below
    have located := mulacc_located ⟨stateId, below⟩
    rw [mulaccPlatform_slotSel ⟨stateId, below⟩,
      Cxu.call_readStatus located] at answered
    obtain ⟨isRead, -⟩ := Prod.mk.inj (Option.some.inj answered)
    rw [← Option.some.inj isRead, mulacc_stateSize (settled _)]
    decide

/-- The third open finds both states in use; the first one is handed out again
after its close. -/
theorem runtime_refines_allocator_reuse :
    ∃ final,
      Transition.run (Machine.serve (mulaccPlatform bareOthers))
          (cxInit sourceConfig (mulacc.initial, ()))
          [.cxOpen 222 0 (-1), .between 0x10000002 0 (mulacc.initial, ()),
            .cxOpen 222 1 0, .cxOpen 222 0 0, .cxClose 0x10000002,
            .cxOpen 222 0 0] =
        some (final, [some 0x10000002, none, some 0x10010002, some (-1), none,
          some 0x10000002]) ∧
      ∀ {cxId stateId}, stateId < sourceConfig.numStates cxId →
        ((final.cxMap cxId).availStateIds[stateId]? = some cxAvailState ↔
          slotSel cxId stateId ∉ [0x10000002, 0x10010002]) := by
  apply runtime_refines_allocator mulaccPlatform_serves mulacc.initial_settled
  · intro call member
    simp only [List.mem_cons, List.not_mem_nil, or_false] at member
    rcases member with rfl | rfl | rfl | rfl | rfl | rfl
    · trivial
    · exact mulacc.initial_settled
    · trivial
    · trivial
    · trivial
    · trivial
  · rfl

end CxRuntime
