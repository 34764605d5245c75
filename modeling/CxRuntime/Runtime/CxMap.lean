import CxRuntime.Utils
import CxRuntime.Zoo.Mulacc
import Mathlib.Data.List.FinRange
import Mathlib.Data.List.Induction

/-!
# The table `cx_map`

The entries of the machine-mode runtime.  The guid and the number of states of
an entry are static; the availability of its states and the sharing counters
change.  Both arrays have `num_states` elements, and an access outside them is
`none`.
-/

namespace CxRuntime

def cxGuidMuldiv : Word := 11

def cxGuidAddsub : Word := 4

def cxGuidPext : Word := 5

def cxAvailState : Word := 1

def cxUnavailState : Word := 0

/-- `cx_state_info_t`. -/
structure CxStateInfo where
  share : Word
  counter : Word

/-- `cx_entry_m_t`. -/
structure CxEntry where
  cxGuid : Word
  numStates : Nat
  availStateIds : List Word
  stateInfo : List CxStateInfo
  availStateIds_length : availStateIds.length = numStates
  stateInfo_length : stateInfo.length = numStates

abbrev CxMap := Fin numCx → CxEntry

namespace CxEntry

/-- An entry as the loop of `cx_init` leaves it. -/
def fresh (cxGuid : Word) (numStates : Nat) : CxEntry :=
  { cxGuid := cxGuid
    numStates := numStates
    availStateIds := List.replicate numStates cxAvailState
    stateInfo := List.replicate numStates { share := -1, counter := 0 }
    availStateIds_length := List.length_replicate
    stateInfo_length := List.length_replicate }

/-- `avail_state_ids[state_id] = value`. -/
def setAvail (entry : CxEntry) (stateId : Nat) (value : Word) :
    Option CxEntry :=
  if stateId < entry.numStates then
    some { entry with
      availStateIds := entry.availStateIds.set stateId value
      availStateIds_length := by
        rw [List.length_set, entry.availStateIds_length] }
  else none

/-- `state_info[state_id] = info`. -/
def setInfo (entry : CxEntry) (stateId : Nat) (info : CxStateInfo) :
    Option CxEntry :=
  if stateId < entry.numStates then
    some { entry with
      stateInfo := entry.stateInfo.set stateId info
      stateInfo_length := by
        rw [List.length_set, entry.stateInfo_length] }
  else none

/-- The index of the first available state. -/
def firstFree (entry : CxEntry) : Option Nat :=
  entry.availStateIds.findIdx? fun avail => avail = cxAvailState

def getFreeState (entry : CxEntry) : Int :=
  match entry.firstFree with
  | some i => i
  | none => -1

def isValidStateId (entry : CxEntry) (stateId : Int) : Bool :=
  if stateId < 0 then false
  else if stateId > (entry.numStates : Int) - 1 then false
  else true

/-- What `cx_close` does to a stateful entry. -/
def closeState (entry : CxEntry) (stateId : Nat) : Option CxEntry := do
  let released ← entry.setAvail stateId cxAvailState
  let info ← released.stateInfo[stateId]?
  let counter := info.counter - 1
  let share := if counter = 0 then -1 else info.share
  released.setInfo stateId { share := share, counter := counter }

/-! ## Lemmas about one entry -/

/-- Everything but the sharing data of an entry. -/
structure Allocates (entry next : CxEntry) (stateId : Nat) (value : Word) :
    Prop where
  cxGuid_eq : next.cxGuid = entry.cxGuid
  numStates_eq : next.numStates = entry.numStates
  avail_eq : next.availStateIds = entry.availStateIds.set stateId value

theorem Allocates.avail_same {entry next : CxEntry} {stateId : Nat}
    {value : Word} (allocates : entry.Allocates next stateId value)
    (below : stateId < entry.numStates) :
    next.availStateIds[stateId]? = some value := by
  rw [allocates.avail_eq]
  exact List.getElem?_set_self (entry.availStateIds_length ▸ below)

private theorem Allocates.avail_other {entry next : CxEntry}
    {stateId other : Nat}
    {value : Word} (allocates : entry.Allocates next stateId value)
    (different : other ≠ stateId) :
    next.availStateIds[other]? = entry.availStateIds[other]? := by
  rw [allocates.avail_eq]
  exact List.getElem?_set_ne different.symm

theorem setAvail_of_lt {entry : CxEntry} {stateId : Nat}
    (below : stateId < entry.numStates) (value : Word) :
    ∃ next, entry.setAvail stateId value = some next ∧
      entry.Allocates next stateId value :=
  ⟨_, if_pos below, rfl, rfl, rfl⟩

theorem allocates_of_setAvail {entry next : CxEntry} {stateId : Nat}
    {value : Word} (stored : entry.setAvail stateId value = some next) :
    stateId < entry.numStates ∧ entry.Allocates next stateId value := by
  unfold setAvail at stored
  split at stored
  · cases stored
    exact ⟨‹_›, rfl, rfl, rfl⟩
  · cases stored

theorem closeState_of_lt {entry : CxEntry} {stateId : Nat}
    (below : stateId < entry.numStates) :
    ∃ next, entry.closeState stateId = some next ∧
      entry.Allocates next stateId cxAvailState := by
  have infoBelow : stateId < entry.stateInfo.length := by
    rwa [entry.stateInfo_length]
  simp only [closeState, setAvail, if_pos below, setInfo, Option.bind_eq_bind,
    Option.bind_some, List.getElem?_eq_getElem infoBelow]
  exact ⟨_, rfl, rfl, rfl, rfl⟩

theorem allocates_of_closeState {entry next : CxEntry} {stateId : Nat}
    (closed : entry.closeState stateId = some next) :
    stateId < entry.numStates ∧ entry.Allocates next stateId cxAvailState := by
  obtain ⟨_, stored, _⟩ := Option.bind_eq_some_iff.mp closed
  have below := (allocates_of_setAvail stored).1
  obtain ⟨other, otherClosed, allocates⟩ := closeState_of_lt below
  cases closed.symm.trans otherClosed
  exact ⟨below, allocates⟩

theorem firstFree_eq_some_iff {entry : CxEntry} {stateId : Nat} :
    entry.firstFree = some stateId ↔
      entry.availStateIds[stateId]? = some cxAvailState ∧
        ∀ earlier, earlier < stateId →
          entry.availStateIds[earlier]? ≠ some cxAvailState := by
  rw [firstFree, List.findIdx?_eq_some_iff_getElem]
  constructor
  · intro first
    obtain ⟨below, available, earliest⟩ := first
    constructor
    · rw [List.getElem?_eq_getElem below]
      exact congrArg some (of_decide_eq_true available)
    · intro earlier earlierLt found
      obtain ⟨_, same⟩ := List.getElem?_eq_some_iff.mp found
      exact earliest earlier earlierLt (decide_eq_true same)
  · intro first
    obtain ⟨found, earliest⟩ := first
    obtain ⟨below, same⟩ := List.getElem?_eq_some_iff.mp found
    refine ⟨below, decide_eq_true same, ?_⟩
    intro earlier earlierLt available
    apply earliest earlier earlierLt
    rw [List.getElem?_eq_getElem (earlierLt.trans below)]
    exact congrArg some (of_decide_eq_true available)

theorem firstFree_eq_none_iff {entry : CxEntry} :
    entry.firstFree = none ↔
      ∀ stateId : Nat, entry.availStateIds[stateId]? ≠ some cxAvailState := by
  rw [firstFree, List.findIdx?_eq_none_iff]
  constructor
  · intro unavailable stateId found
    have member := List.mem_of_getElem? found
    exact of_decide_eq_false (unavailable _ member) rfl
  · intro unavailable avail member
    obtain ⟨stateId, found⟩ := List.mem_iff_getElem?.mp member
    apply decide_eq_false
    rintro rfl
    exact unavailable stateId found

theorem avail_lt {entry : CxEntry} {stateId : Nat} {value : Word}
    (found : entry.availStateIds[stateId]? = some value) :
    stateId < entry.numStates := by
  rw [← entry.availStateIds_length]
  exact (List.getElem?_eq_some_iff.mp found).1

theorem firstFree_lt {entry : CxEntry} {stateId : Nat}
    (free : entry.firstFree = some stateId) : stateId < entry.numStates :=
  avail_lt (firstFree_eq_some_iff.mp free).1

/-- The guard of `cx_open` passes exactly with the first free state. -/
theorem isValidStateId_getFreeState (entry : CxEntry) :
    entry.isValidStateId entry.getFreeState = entry.firstFree.isSome := by
  cases free : entry.firstFree with
  | none => simp only [getFreeState, free, isValidStateId]; rfl
  | some stateId =>
      have below := firstFree_lt free
      have notNegative : ¬(stateId : Int) < 0 := by omega
      have notPast : ¬(stateId : Int) > (entry.numStates : Int) - 1 := by omega
      simp only [getFreeState, free, isValidStateId, if_neg notNegative,
        if_neg notPast, Option.isSome_some]

end CxEntry

/-! ## Lookup by guid -/

/-- The loop of `cx_open` over `cx_map`: the last entry with the guid, `none` for
`cx_id == -1`. -/
def findCxId (cxMap : CxMap) (cxGuid : Word) : Option (Fin numCx) :=
  (List.finRange numCx).foldl
    (fun cxId j => if (cxMap j).cxGuid = cxGuid then some j else cxId) none

private theorem foldl_last_eq_find? {α : Type} (test : α → Prop)
    [DecidablePred test]
    (items : List α) :
    items.foldl (fun found item => if test item then some item else found)
        none =
      items.reverse.find? fun item => test item := by
  induction items using List.reverseRecOn with
  | nil => rfl
  | append_singleton items last induction =>
      rw [List.foldl_append, List.reverse_append, induction]
      by_cases holds : test last
      · simp [holds]
      · simp [holds]

theorem findCxId_eq_find? (cxMap : CxMap) (cxGuid : Word) :
    findCxId cxMap cxGuid =
      (List.finRange numCx).reverse.find? fun j => (cxMap j).cxGuid = cxGuid :=
  foldl_last_eq_find? (fun j => (cxMap j).cxGuid = cxGuid) _

theorem cxGuid_of_findCxId {cxMap : CxMap} {cxGuid : Word} {cxId : Fin numCx}
    (found : findCxId cxMap cxGuid = some cxId) :
    (cxMap cxId).cxGuid = cxGuid := by
  rw [findCxId_eq_find?] at found
  have holds := List.find?_some found
  exact of_decide_eq_true holds

theorem findCxId_eq_none_iff {cxMap : CxMap} {cxGuid : Word} :
    findCxId cxMap cxGuid = none ↔ ∀ cxId, (cxMap cxId).cxGuid ≠ cxGuid := by
  rw [findCxId_eq_find?, List.find?_eq_none]
  simp

/-! ## Configurations -/

/-- The static part of `cx_map`: registered entries have distinct guids, and the
others are all zero. -/
structure CxConfig where
  cxGuid : Fin numCx → Word
  numStates : Fin numCx → Nat
  distinct : ∀ left right, cxGuid left ≠ 0 → cxGuid left = cxGuid right →
    left = right
  blank : ∀ cxId, cxGuid cxId = 0 → numStates cxId = 0
  numStates_le : ∀ cxId, numStates cxId ≤ 256

/-- `cx_map` after `cx_init`. -/
def CxConfig.cxMap (config : CxConfig) : CxMap := fun cxId =>
  .fresh (config.cxGuid cxId) (config.numStates cxId)

/-- The registrations of `cx_init`. -/
def sourceConfig : CxConfig :=
  { cxGuid := fun cxId =>
      match cxId with
      | 0 => cxGuidMuldiv
      | 1 => cxGuidAddsub
      | 2 => Mulacc.cxGuidMulacc
      | 3 => cxGuidPext
      | _ => 0
    numStates := fun cxId =>
      match cxId with
      | 2 => Mulacc.cxMulaccNumStates
      | _ => 0
    distinct := by decide
    blank := by decide
    numStates_le := by decide }

/-- The static part of a table is a configuration. -/
def CxMap.HasConfig (cxMap : CxMap) (config : CxConfig) : Prop :=
  ∀ cxId, (cxMap cxId).cxGuid = config.cxGuid cxId ∧
    (cxMap cxId).numStates = config.numStates cxId

theorem CxConfig.cxMap_hasConfig (config : CxConfig) :
    config.cxMap.HasConfig config := fun _ => ⟨rfl, rfl⟩

namespace CxMap

theorem HasConfig.update {cxMap : CxMap} {config : CxConfig}
    (has : cxMap.HasConfig config) {cxId : Fin numCx} {entry : CxEntry}
    {stateId : Nat} {value : Word}
    (allocates : (cxMap cxId).Allocates entry stateId value) :
    CxMap.HasConfig (Function.update cxMap cxId entry) config := by
  intro other
  by_cases same : other = cxId
  · subst same
    rw [Function.update_self, allocates.cxGuid_eq, allocates.numStates_eq]
    exact has other
  · rw [Function.update_of_ne same]
    exact has other

/-- Updating one state of one entry leaves the availability of all others. -/
theorem avail_update_of_ne {cxMap : CxMap} {cxId other : Fin numCx}
    {entry : CxEntry} {stateId otherId : Nat} {value : Word}
    (allocates : (cxMap cxId).Allocates entry stateId value)
    (different : ¬(other = cxId ∧ otherId = stateId)) :
    (Function.update cxMap cxId entry other).availStateIds[otherId]? =
      (cxMap other).availStateIds[otherId]? := by
  by_cases sameId : other = cxId
  · subst sameId
    rw [Function.update_self]
    exact allocates.avail_other fun equality => different ⟨rfl, equality⟩
  · rw [Function.update_of_ne sameId]

/-- A registered guid is found in its only slot. -/
theorem HasConfig.findCxId_eq {cxMap : CxMap} {config : CxConfig}
    (has : cxMap.HasConfig config) {cxId : Fin numCx}
    (registered : config.cxGuid cxId ≠ 0) :
    findCxId cxMap (config.cxGuid cxId) = some cxId := by
  cases found : findCxId cxMap (config.cxGuid cxId) with
  | none => exact absurd (has cxId).1 (findCxId_eq_none_iff.mp found cxId)
  | some other =>
      have same := (has other).1.symm.trans (cxGuid_of_findCxId found)
      rw [config.distinct cxId other registered same.symm]

end CxMap

end CxRuntime
