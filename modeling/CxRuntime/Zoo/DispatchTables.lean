import CxRuntime.Lib.Cells
import CxRuntime.Zoo.Exports
import Mathlib.Tactic.IntervalCases

/-!
# The arrays behind the dispatch

`exports.c` as the arrays it declares: `cx_funcs`, `num_cfs` and `num_states`
with their sizes, the function tables of the CXUs with theirs, and
`cx_init_funcs` as the stores it makes.  A load outside an array is `none`; a
`NULL` entry is `some none`.
-/

namespace CxRuntime

/-! ## The initialisers of the function tables -/

def Muldiv.listedFuncs : List (Option StatelessFunc) :=
  [some mulFunc, some divFunc]

def Addsub.listedFuncs : List (Option StatelessFunc) :=
  [some addFunc, none, some subFunc, some cxFuncUndefined, some add1000,
    some cxFuncOpPos, some cxFuncCuBit0]

def Mulacc.listedFuncs : List (Option (CxFunc Statics)) :=
  [some macFunc, some resetFunc, some doNothing, some zeroMacFunc,
    some readAccFunc]

def Pext.listedFuncs : List (Option StatelessFunc) :=
  [some add16Func, some sra16Func, some smul16Func, some add8Func,
    some sra8Func, some smul8Func]

def Vector.listedFuncs : List (Option (CxFunc Statics)) :=
  [some addFunc.untraced, some setIncFunc.untraced, some set2Func.untraced,
    some resetFunc.untraced]

def Max.listedFuncs : List (Option StatelessFunc) := [some maxFunc]

def NnAcc.listedFuncs : List (Option (CxFunc Statics)) :=
  [some nnAccFunc, some resetFunc, some reluFunc]

/-- The arrays that an entry of `cx_funcs` points to. -/
inductive FuncTable where
  | muldiv
  | addsub
  | mulacc
  | pext
  | vector
  | max
  | nnAcc
  | error
  deriving DecidableEq, Repr

/-- The stateless tables are as long as their initialisers, the stateful ones
have `MAX_CF_IDS` entries and `cx_func_error` has one. -/
def FuncTable.size : FuncTable → Nat
  | .muldiv => Muldiv.listedFuncs.length
  | .addsub => Addsub.listedFuncs.length
  | .pext => Pext.listedFuncs.length
  | .max => Max.listedFuncs.length
  | .mulacc | .vector | .nnAcc => maxCfIds
  | .error => 1

/-! ## The arrays -/

/-- The arrays that are written after the start.  The tables of the stateless
CXUs never are. -/
structure DispatchTables where
  cxFuncs : Nat → Option FuncTable
  numCfs : Nat → Nat
  numStates : Nat → Nat
  cxFuncMulacc : Nat → Option (CxFunc Mulacc.Statics)
  cxFuncVector : Nat → Option (CxFunc Vector.Statics)
  cxFuncNnAcc : Nat → Option (CxFunc NnAcc.Statics)

namespace DispatchTables

/-- The arrays before `cx_init_funcs`. -/
def static : DispatchTables :=
  { cxFuncs := Cells.initialised
      [some .muldiv, some .addsub, some .mulacc, some .pext, some .vector,
        some .vector, some .max, some .nnAcc] none
    numCfs := Cells.initialised
      [Muldiv.cxMuldivNumFuncs, Addsub.cxAddsubNumFuncs,
        Mulacc.cxMulaccNumFuncs, Pext.cxPextNumFuncs, Vector.cxVectorNumFuncs,
        Vector.cxVectorNumFuncs, Max.cxMaxNumFuncs, NnAcc.cxNnAccNumFuncs] 0
    numStates := Cells.initialised
      [Muldiv.cxMuldivNumStates, Addsub.cxAddsubNumStates,
        Mulacc.cxMulaccNumStates, Pext.cxPextNumStates,
        Vector.cxVectorNumStates, Vector.cxVectorNumStates,
        Max.cxMaxNumStates, NnAcc.cxNnAccNumStates] 0
    cxFuncMulacc := Cells.initialised Mulacc.listedFuncs none
    cxFuncVector := Cells.initialised Vector.listedFuncs none
    cxFuncNnAcc := Cells.initialised NnAcc.listedFuncs none }

/-- The entries of a table, as functions on the static arrays of all CXUs. -/
def entries (tables : DispatchTables) (table : FuncTable) (cfId : Nat) :
    Option (CxFunc ZooStatics) :=
  match table with
  | .muldiv =>
      (Cells.initialised Muldiv.listedFuncs none cfId).map StatelessFunc.onZoo
  | .addsub =>
      (Cells.initialised Addsub.listedFuncs none cfId).map StatelessFunc.onZoo
  | .mulacc => (tables.cxFuncMulacc cfId).map onMulacc
  | .pext =>
      (Cells.initialised Pext.listedFuncs none cfId).map StatelessFunc.onZoo
  | .vector => (tables.cxFuncVector cfId).map onVector
  | .max =>
      (Cells.initialised Max.listedFuncs none cfId).map StatelessFunc.onZoo
  | .nnAcc => (tables.cxFuncNnAcc cfId).map onNnAcc
  | .error => none

def loadCxFuncs (tables : DispatchTables) (cxId : Nat) :
    Option (Option FuncTable) :=
  Cells.load maxCxId tables.cxFuncs cxId

def loadNumCfs (tables : DispatchTables) (cxId : Nat) : Option Nat :=
  Cells.load maxCxId tables.numCfs cxId

def loadNumStates (tables : DispatchTables) (cxId : Nat) : Option Nat :=
  Cells.load maxStateSize tables.numStates cxId

def loadEntry (tables : DispatchTables) (table : FuncTable) (cfId : Nat) :
    Option (Option (CxFunc ZooStatics)) :=
  Cells.load table.size (tables.entries table) cfId

/-! ## The initialisation -/

/-- The body of `init_cx_func_mulacc` and its siblings as far as it writes the
function table. -/
def initFuncTable {φ : Type} (numFuncs : Nat)
    (undefined writeState readState writeStatus readStatus : φ)
    (table : Nat → Option φ) : Option (Nat → Option φ) := do
  let table ← Cells.fill maxCfIds numFuncs (maxCfIds - 4) (some undefined) table
  let table ← Cells.store maxCfIds table (1020 : Nat) (some writeState)
  let table ← Cells.store maxCfIds table (1021 : Nat) (some readState)
  let table ← Cells.store maxCfIds table (1022 : Nat) (some writeStatus)
  Cells.store maxCfIds table (1023 : Nat) (some readStatus)

def initCxFuncMulacc (tables : DispatchTables) : Option DispatchTables := do
  let table ← initFuncTable Mulacc.cxMulaccNumFuncs cxFuncUndefined
    Mulacc.mulaccWriteStateFunc Mulacc.mulaccReadStateFunc
    Mulacc.mulaccWriteStatusFunc Mulacc.mulaccReadStatusFunc
    tables.cxFuncMulacc
  some { tables with cxFuncMulacc := table }

def initCxFuncVector (tables : DispatchTables) : Option DispatchTables := do
  let table ← initFuncTable Vector.cxVectorNumFuncs cxFuncUndefined
    Vector.vectorWriteStateFunc.untraced Vector.vectorReadStateFunc.untraced
    Vector.vectorWriteStatusFunc Vector.vectorReadStatusFunc
    tables.cxFuncVector
  some { tables with cxFuncVector := table }

def initCxFuncNnAcc (tables : DispatchTables) : Option DispatchTables := do
  let table ← initFuncTable NnAcc.cxNnAccNumFuncs cxFuncUndefined
    NnAcc.nnAccWriteStateFunc NnAcc.nnAccReadStateFunc
    NnAcc.nnAccWriteStatusFunc NnAcc.nnAccReadStatusFunc
    tables.cxFuncNnAcc
  some { tables with cxFuncNnAcc := table }

/-- One turn of the loop over the unused ids. -/
def fillUnused (offset : Nat) (tables : DispatchTables) :
    Option DispatchTables := do
  let i := ((numCx + offset : Nat) : Int)
  let cxFuncs ← Cells.store maxCxId tables.cxFuncs i (some .error)
  let numCfs ← Cells.store maxCxId tables.numCfs i 0
  let numStates ← Cells.store maxStateSize tables.numStates i 0
  some { tables with
    cxFuncs := cxFuncs, numCfs := numCfs, numStates := numStates }

def cxInitFuncs (tables : DispatchTables) : Option DispatchTables := do
  let tables ← tables.initCxFuncMulacc
  let tables ← tables.initCxFuncVector
  let tables ← tables.initCxFuncNnAcc
  Loop.forUpTo (maxCxId - numCx) fillUnused tables

/-! ## The tables after the initialisation -/

section FuncTables

variable {φ : Type} {numFuncs : Nat}
  (undefined writeState readState writeStatus readStatus : φ)
  (table : Nat → Option φ)

/-- What `init_cx_func_mulacc` and its siblings leave in a function table. -/
def filledTable (numFuncs : Nat) : Nat → Option φ := fun cfId =>
  if cfId = 1023 then some readStatus
  else if cfId = 1022 then some writeStatus
  else if cfId = 1021 then some readState
  else if cfId = 1020 then some writeState
  else if numFuncs ≤ cfId ∧ cfId < 1020 then some undefined
  else table cfId

theorem initFuncTable_eq (few : numFuncs ≤ 1020) :
    initFuncTable numFuncs undefined writeState readState writeStatus
        readStatus table =
      some (filledTable undefined writeState readState writeStatus readStatus
        table numFuncs) := by
  have filled := @Cells.fill_eq _ maxCfIds numFuncs 1020 few (by decide)
    (some undefined) table
  have unused : numFuncs + (1020 - numFuncs) = 1020 := by omega
  rw [initFuncTable, show maxCfIds - 4 = 1020 from rfl, filled]
  simp only [Option.bind_eq_bind, Option.bind_some,
    Cells.store_natCast _ (show 1020 < maxCfIds by decide),
    Cells.store_natCast _ (show 1021 < maxCfIds by decide),
    Cells.store_natCast _ (show 1022 < maxCfIds by decide),
    Cells.store_natCast _ (show 1023 < maxCfIds by decide)]
  congr 1
  funext cfId
  simp only [Function.update_apply, filledTable, Cells.overwrite, unused]

/-- A lookup that lists the same functions agrees with the filled table. -/
theorem filledTable_eq (lookup : Nat → Option φ) {cfId : Nat}
    (below : cfId < maxCfIds)
    (users : ∀ cfId, cfId < numFuncs → table cfId = lookup cfId)
    (unused : ∀ cfId, numFuncs ≤ cfId → cfId < 1020 →
      lookup cfId = some undefined)
    (isWriteState : lookup 1020 = some writeState)
    (isReadState : lookup 1021 = some readState)
    (isWriteStatus : lookup 1022 = some writeStatus)
    (isReadStatus : lookup 1023 = some readStatus) :
    filledTable undefined writeState readState writeStatus readStatus table
        numFuncs cfId =
      lookup cfId := by
  change cfId < 1024 at below
  unfold filledTable
  split_ifs with is1023 is1022 is1021 is1020 isUnused
  · rw [is1023, isReadStatus]
  · rw [is1022, isWriteStatus]
  · rw [is1021, isReadState]
  · rw [is1020, isWriteState]
  · rw [unused cfId isUnused.1 isUnused.2]
  · apply users
    omega

end FuncTables

/-- `cx_func_mulacc` after its initialisation. -/
def mulaccTable : Nat → Option (CxFunc Mulacc.Statics) :=
  filledTable cxFuncUndefined Mulacc.mulaccWriteStateFunc
    Mulacc.mulaccReadStateFunc Mulacc.mulaccWriteStatusFunc
    Mulacc.mulaccReadStatusFunc static.cxFuncMulacc Mulacc.cxMulaccNumFuncs

def vectorTable : Nat → Option (CxFunc Vector.Statics) :=
  filledTable cxFuncUndefined Vector.vectorWriteStateFunc.untraced
    Vector.vectorReadStateFunc.untraced Vector.vectorWriteStatusFunc
    Vector.vectorReadStatusFunc static.cxFuncVector Vector.cxVectorNumFuncs

def nnAccTable : Nat → Option (CxFunc NnAcc.Statics) :=
  filledTable cxFuncUndefined NnAcc.nnAccWriteStateFunc
    NnAcc.nnAccReadStateFunc NnAcc.nnAccWriteStatusFunc
    NnAcc.nnAccReadStatusFunc static.cxFuncNnAcc NnAcc.cxNnAccNumFuncs

section Lookups

variable {cfId : Nat} (below : cfId < maxCfIds)
include below

theorem mulaccTable_eq : mulaccTable cfId = Mulacc.cxFuncMulacc cfId := by
  apply filledTable_eq _ _ _ _ _ _ Mulacc.cxFuncMulacc below
  · intro cfId user
    change cfId < 5 at user
    interval_cases cfId <;> rfl
  · intro cfId past unused
    change 5 ≤ cfId at past
    rw [Mulacc.cxFuncMulacc]
    iterate 9 rw [if_neg (by omega)]
    exact if_pos (Nat.lt_trans unused (by decide))
  · rfl
  · rfl
  · rfl
  · rfl

theorem vectorTable_eq : vectorTable cfId = Vector.cxFuncVector cfId := by
  apply filledTable_eq _ _ _ _ _ _ Vector.cxFuncVector below
  · intro cfId user
    change cfId < 4 at user
    interval_cases cfId <;> rfl
  · intro cfId past unused
    rw [Vector.cxFuncVector, if_neg (Nat.not_lt_of_le past)]
    iterate 4 rw [if_neg (by omega)]
    exact if_pos (Nat.lt_trans unused (by decide))
  · rfl
  · rfl
  · rfl
  · rfl

theorem nnAccTable_eq : nnAccTable cfId = NnAcc.cxFuncNnAcc cfId := by
  apply filledTable_eq _ _ _ _ _ _ NnAcc.cxFuncNnAcc below
  · intro cfId user
    change cfId < 3 at user
    interval_cases cfId <;> rfl
  · intro cfId past unused
    change 3 ≤ cfId at past
    rw [NnAcc.cxFuncNnAcc]
    iterate 7 rw [if_neg (by omega)]
    exact if_pos (Nat.lt_trans unused (by decide))
  · rfl
  · rfl
  · rfl
  · rfl

end Lookups

/-- The arrays after some turns of the loop over the unused ids. -/
def unusedFilled (turns : Nat) (tables : DispatchTables) : DispatchTables :=
  { tables with
    cxFuncs := Cells.overwrite tables.cxFuncs numCx turns fun _ => some .error
    numCfs := Cells.overwrite tables.numCfs numCx turns fun _ => 0
    numStates := Cells.overwrite tables.numStates numCx turns fun _ => 0 }

/-- The arrays after `cx_init_funcs`. -/
def afterInit : DispatchTables :=
  unusedFilled (maxCxId - numCx)
    { static with
      cxFuncMulacc := mulaccTable
      cxFuncVector := vectorTable
      cxFuncNnAcc := nnAccTable }

/-- A turn below `MAX_CX_ID` stores inside all three arrays. -/
theorem fillUnused_eq (tables : DispatchTables) {offset : Nat}
    (below : offset < maxCxId - numCx) :
    fillUnused offset (unusedFilled offset tables) =
      some (unusedFilled (offset + 1) tables) := by
  change offset < 247 at below
  have inCxs : numCx + offset < maxCxId := by
    change 8 + offset < 255
    omega
  have inStates : numCx + offset < maxStateSize := by
    change 8 + offset < 1024
    omega
  simp only [fillUnused, unusedFilled, Cells.store_natCast _ inCxs,
    Cells.store_natCast _ inStates, Option.bind_eq_bind, Option.bind_some]
  rw [← Cells.update_overwrite, ← Cells.update_overwrite,
    ← Cells.update_overwrite]

private theorem forUpTo_fillUnused (tables : DispatchTables) :
    Loop.forUpTo (maxCxId - numCx) fillUnused tables =
      some (unusedFilled (maxCxId - numCx) tables) := by
  obtain ⟨final, ran, finalEq⟩ := Loop.forUpTo_total fillUnused tables
    (fun offset state => state = unusedFilled offset tables)
    (by simp [unusedFilled]) (maxCxId - numCx)
    (by
      intro offset state below stateEq
      subst stateEq
      exact ⟨_, fillUnused_eq tables below, rfl⟩)
  rw [ran, finalEq]

theorem cxInitFuncs_eq : static.cxInitFuncs = some afterInit := by
  have mulacc : static.initCxFuncMulacc =
      some { static with cxFuncMulacc := mulaccTable } := by
    rw [initCxFuncMulacc, initFuncTable_eq _ _ _ _ _ _ (by decide)]
    rfl
  simp only [cxInitFuncs, mulacc, initCxFuncVector, initCxFuncNnAcc,
    initFuncTable_eq _ _ _ _ _ _ (show Vector.cxVectorNumFuncs ≤ 1020 by decide),
    initFuncTable_eq _ _ _ _ _ _ (show NnAcc.cxNnAccNumFuncs ≤ 1020 by decide),
    Option.bind_eq_bind, Option.bind_some, forUpTo_fillUnused]
  rfl

/-! ## Dispatch -/

private theorem afterInit_unregistered {cxId : Nat} (past : numCx ≤ cxId)
    (inside : cxId < maxCxId) :
    afterInit.cxFuncs cxId = some .error ∧ afterInit.numCfs cxId = 0 ∧
      afterInit.numStates cxId = 0 := by
  have bounds : numCx ≤ cxId ∧ cxId < numCx + (maxCxId - numCx) := ⟨past, inside⟩
  simp only [afterInit, unusedFilled, Cells.overwrite, if_pos bounds, and_self]

/-- The tables of a registered CXU: every advertised function is inside, and a
stateful CXU has a function at every CF id. -/
structure TableOf (cxId : Nat) (table : FuncTable) : Prop where
  isTable : afterInit.cxFuncs cxId = some table
  numCfsInside : afterInit.numCfs cxId ≤ table.size
  entries_eq : ∀ cfId, cfId < table.size →
    afterInit.entries table cfId = CxRuntime.cxFuncs cxId cfId
  stateful : 0 < afterInit.numStates cxId → table.size = maxCfIds ∧
    ∀ cfId, cfId < maxCfIds → Filled (afterInit.entries table cfId)

private theorem tableOf_stateless {cxId : Nat} {table : FuncTable}
    (isTable : afterInit.cxFuncs cxId = some table)
    (numCfsInside : afterInit.numCfs cxId ≤ table.size)
    (entries_eq : ∀ cfId, cfId < table.size →
      afterInit.entries table cfId = CxRuntime.cxFuncs cxId cfId)
    (stateless : afterInit.numStates cxId = 0) : TableOf cxId table := by
  constructor
  · exact isTable
  · exact numCfsInside
  · exact entries_eq
  · intro stateful
    omega

/-- A stateful CXU whose table is a filled lookup, seen on all static arrays. -/
theorem tableOf_stateful {σ : Type} {cxId : Nat} {table : FuncTable}
    (wrap : CxFunc σ → CxFunc ZooStatics) (lookup : Nat → Option (CxFunc σ))
    (isTable : afterInit.cxFuncs cxId = some table)
    (numCfsInside : afterInit.numCfs cxId ≤ maxCfIds)
    (isSized : table.size = maxCfIds)
    (entries_eq : ∀ cfId, cfId < maxCfIds →
      afterInit.entries table cfId = (lookup cfId).map wrap)
    (isLookup : ∀ cfId, CxRuntime.cxFuncs cxId cfId = (lookup cfId).map wrap)
    (filled : ∀ cfId, cfId < maxCfIds → Filled (lookup cfId)) :
    TableOf cxId table := by
  constructor
  · exact isTable
  · rwa [isSized]
  · intro cfId below
    rw [isSized] at below
    rw [entries_eq cfId below, isLookup]
  · intro _
    refine ⟨isSized, ?_⟩
    intro cfId below
    rw [entries_eq cfId below]
    exact (filled cfId below).map wrap

private theorem mulacc_entries (cfId : Nat) (below : cfId < maxCfIds) :
    afterInit.entries .mulacc cfId = (Mulacc.cxFuncMulacc cfId).map onMulacc :=
  congrArg (Option.map onMulacc) (mulaccTable_eq below)

private theorem vector_entries (cfId : Nat) (below : cfId < maxCfIds) :
    afterInit.entries .vector cfId = (Vector.cxFuncVector cfId).map onVector :=
  congrArg (Option.map onVector) (vectorTable_eq below)

private theorem nnAcc_entries (cfId : Nat) (below : cfId < maxCfIds) :
    afterInit.entries .nnAcc cfId = (NnAcc.cxFuncNnAcc cfId).map onNnAcc :=
  congrArg (Option.map onNnAcc) (nnAccTable_eq below)

private theorem registered_table {cxId : Nat} (registered : cxId < numCx) :
    ∃ table, TableOf cxId table := by
  change cxId < 8 at registered
  interval_cases cxId
  · refine ⟨.muldiv, tableOf_stateless rfl (by decide) ?_ rfl⟩
    intro cfId below
    change cfId < 2 at below
    interval_cases cfId <;> rfl
  · refine ⟨.addsub, tableOf_stateless rfl (by decide) ?_ rfl⟩
    intro cfId below
    change cfId < 7 at below
    interval_cases cfId <;> rfl
  · exact ⟨.mulacc, tableOf_stateful onMulacc Mulacc.cxFuncMulacc rfl
      (by decide) rfl mulacc_entries (fun _ => rfl)
      fun _ below => Mulacc.cxFuncMulacc_filled below⟩
  · refine ⟨.pext, tableOf_stateless rfl (by decide) ?_ rfl⟩
    intro cfId below
    change cfId < 6 at below
    interval_cases cfId <;> rfl
  · exact ⟨.vector, tableOf_stateful onVector Vector.cxFuncVector rfl
      (by decide) rfl vector_entries (fun _ => rfl)
      fun _ below => Vector.cxFuncVector_filled below⟩
  · exact ⟨.vector, tableOf_stateful onVector Vector.cxFuncVector rfl
      (by decide) rfl vector_entries (fun _ => rfl)
      fun _ below => Vector.cxFuncVector_filled below⟩
  · refine ⟨.max, tableOf_stateless rfl (by decide) ?_ rfl⟩
    intro cfId below
    obtain rfl : cfId = 0 := Nat.lt_one_iff.mp below
    rfl
  · exact ⟨.nnAcc, tableOf_stateful onNnAcc NnAcc.cxFuncNnAcc rfl
      (by decide) rfl nnAcc_entries (fun _ => rfl)
      fun _ below => NnAcc.cxFuncNnAcc_filled below⟩

/-- The CF id is advertised, or that of a system function of a stateful CXU. -/
def Admitted (tables : DispatchTables) (cxId cfId : Nat) : Prop :=
  (∃ count, tables.loadNumCfs cxId = some count ∧ cfId < count) ∨
    (1020 ≤ cfId ∧ cfId ≤ 1023 ∧
      ∃ states, tables.loadNumStates cxId = some states ∧ 0 < states)

/-- All that the dispatch of a CF id reads is inside the arrays, and what it
calls on a stateful CXU is a function. -/
structure DispatchesInside (tables : DispatchTables) (cxId cfId : Nat) :
    Prop where
  cxFuncsInside : ∃ table, tables.loadCxFuncs cxId = some table
  numCfsInside : ∃ count, tables.loadNumCfs cxId = some count
  numStatesInside : ∃ states, tables.loadNumStates cxId = some states
  unregistered : numCx ≤ cxId →
    tables.loadNumCfs cxId = some 0 ∧ tables.loadNumStates cxId = some 0
  entryInside : tables.Admitted cxId cfId →
    ∃ table entry, tables.loadCxFuncs cxId = some (some table) ∧
      tables.loadEntry table cfId = some entry ∧
      ∀ states, tables.loadNumStates cxId = some states → 0 < states →
        Filled entry

section Loads

variable {cxId : Nat} (inside : cxId < maxCxId) (tables : DispatchTables)
include inside

theorem loadCxFuncs_eq :
    tables.loadCxFuncs cxId = some (tables.cxFuncs cxId) :=
  Cells.load_natCast tables.cxFuncs inside

theorem loadNumCfs_eq : tables.loadNumCfs cxId = some (tables.numCfs cxId) :=
  Cells.load_natCast tables.numCfs inside

theorem loadNumStates_eq :
    tables.loadNumStates cxId = some (tables.numStates cxId) := by
  apply Cells.load_natCast
  exact Nat.lt_trans inside (by decide)

private theorem admitted_iff (cfId : Nat) :
    tables.Admitted cxId cfId ↔ cfId < tables.numCfs cxId ∨
      (1020 ≤ cfId ∧ cfId ≤ 1023 ∧ 0 < tables.numStates cxId) := by
  simp [Admitted, loadNumCfs_eq inside, loadNumStates_eq inside]

end Loads

/-- Below the declared size of `cx_funcs` every dispatch stays inside. -/
theorem afterInit_dispatchesInside {cxId : Nat} (inside : cxId < maxCxId)
    (cfId : Nat) : afterInit.DispatchesInside cxId cfId := by
  constructor
  · exact ⟨_, loadCxFuncs_eq inside afterInit⟩
  · exact ⟨_, loadNumCfs_eq inside afterInit⟩
  · exact ⟨_, loadNumStates_eq inside afterInit⟩
  · intro past
    obtain ⟨_, noFuncs, noStates⟩ := afterInit_unregistered past inside
    rw [loadNumCfs_eq inside, loadNumStates_eq inside, noFuncs, noStates]
    exact ⟨rfl, rfl⟩
  · intro admitted
    rw [admitted_iff inside] at admitted
    by_cases registered : cxId < numCx
    · obtain ⟨table, isTable, advertised, _, stateful⟩ :=
        registered_table registered
      have entryInside : cfId < table.size := by
        rcases admitted with below | ⟨_, last, hasStates⟩
        · omega
        · rw [(stateful hasStates).1]
          exact Nat.lt_succ_of_le last
      refine ⟨table, _, ?_, Cells.load_natCast _ entryInside, ?_⟩
      · rw [loadCxFuncs_eq inside, isTable]
      · intro states loaded hasStates
        rw [loadNumStates_eq inside] at loaded
        cases loaded
        obtain ⟨isSized, filled⟩ := stateful hasStates
        apply filled
        rwa [← isSized]
    · obtain ⟨_, noFuncs, noStates⟩ :=
        afterInit_unregistered (Nat.le_of_not_lt registered) inside
      omega

/-- After `cx_init_funcs` the dispatch of a selector stays inside the arrays
exactly if its `cx_id` is not the last 8-bit value. -/
theorem dispatch_inside_iff (word : Word) (cfId : Nat) :
    (∃ tables, static.cxInitFuncs = some tables ∧
        tables.DispatchesInside (CxSelidx.ofIdx word).cxId.toNat cfId) ↔
      (CxSelidx.ofIdx word).cxId ≠ 255 := by
  constructor
  · rintro ⟨tables, _, dispatches⟩ last
    obtain ⟨table, loaded⟩ := dispatches.cxFuncsInside
    rw [last] at loaded
    cases (Cells.load_outside tables.cxFuncs (by decide)).symm.trans loaded
  · intro notLast
    refine ⟨afterInit, cxInitFuncs_eq, ?_⟩
    apply afterInit_dispatchesInside
    have small := (CxSelidx.ofIdx word).cxId.isLt
    have different : (CxSelidx.ofIdx word).cxId.toNat ≠ 255 := by
      intro equality
      exact notLast (BitVec.eq_of_toNat_eq equality)
    change (CxSelidx.ofIdx word).cxId.toNat < 255
    omega

/-- The selector of the last `cx_id` reads `cx_funcs` and `num_cfs` past their
ends. -/
theorem dispatch_outside :
    (CxSelidx.ofIdx 0x100000FF).cxId = 255 ∧
      afterInit.loadCxFuncs 255 = none ∧ afterInit.loadNumCfs 255 = none ∧
      ¬∀ (word : Word) (cfId : Nat), cfId ≤ 1023 →
        ∃ tables, static.cxInitFuncs = some tables ∧
          tables.DispatchesInside (CxSelidx.ofIdx word).cxId.toNat cfId := by
  refine ⟨by decide, rfl, rfl, ?_⟩
  intro everywhere
  obtain ⟨tables, _, dispatches⟩ := everywhere 0x100000FF 0 (by decide)
  have last : (CxSelidx.ofIdx 0x100000FF).cxId.toNat = 255 := by decide
  obtain ⟨table, loaded⟩ := dispatches.cxFuncsInside
  rw [last] at loaded
  cases loaded

end DispatchTables

end CxRuntime
