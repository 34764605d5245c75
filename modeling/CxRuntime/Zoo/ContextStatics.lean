import CxRuntime.Utils
import Mathlib.Logic.Function.Basic

/-!
# Static state of a stateful CXU

Every stateful CXU of the zoo keeps one data array and the status words
`cxu_stctx_status[instance][state]`, finds its context from the selector in the
same way, and serves CF 1022 and CF 1023 by the same code up to its reset.
A custom function is `none` where the C code exits or indexes a static array
outside its bounds.
-/

namespace CxRuntime

/-- The context `[instance][state]` of a static array. -/
abbrev ContextId (instances states : Nat) := Fin instances × Fin states

/-- The static arrays of one CXU. -/
structure CxuStatics (κ δ : Type) where
  data : δ
  cxuStctxStatus : κ → CxStctxs

/-- `int32_t (*) (int32_t, int32_t, cx_selidx_t)` on the statics of a CXU. -/
abbrev CxFunc (σ : Type) := Word → Word → CxSelidx → σ → Option (Returned × σ)

/-- `cxu_id_to_instance_num` followed by the bounds of the second index. -/
def locate {instances : Nat} (states : Nat)
    (cxuIdToInstanceNum : Nat → Option (Fin instances)) (sysSel : CxSelidx) :
    Option (ContextId instances states) := do
  let instNum ← cxuIdToInstanceNum sysSel.cxId.toNat
  if bound : sysSel.stateId.toNat < states then
    some (instNum, ⟨sysSel.stateId.toNat, bound⟩)
  else none

theorem locate_eq {instances states : Nat}
    {cxuIdToInstanceNum : Nat → Option (Fin instances)} {sysSel : CxSelidx}
    {instNum : Fin instances} {stateId : Fin states}
    (instNumEq : cxuIdToInstanceNum sysSel.cxId.toNat = some instNum)
    (state : sysSel.stateId.toNat = stateId) :
    locate states cxuIdToInstanceNum sysSel = some (instNum, stateId) := by
  have bound : sysSel.stateId.toNat < states := state ▸ stateId.isLt
  have same : (⟨sysSel.stateId.toNat, bound⟩ : Fin states) = stateId :=
    Fin.ext state
  simp only [locate, instNumEq, Option.bind_eq_bind, Option.bind_some,
    dif_pos bound, same]

def cxFuncUndefined {σ : Type} : CxFunc σ :=
  fun _ _ _ statics => some (some (-1), statics)

/-- What holds of every function that a slot of a table may contain. -/
def EveryEntry {φ : Type} (holds : φ → Prop) (slot : Option φ) : Prop :=
  ∀ func, slot = some func → holds func

namespace EveryEntry

variable {φ : Type} {holds : φ → Prop}

theorem none : EveryEntry holds none := fun _ absent => nomatch absent

theorem some {func : φ} (held : holds func) : EveryEntry holds (some func) := by
  rintro _ ⟨⟩
  exact held

theorem ite {condition : Prop} [Decidable condition] {left right : Option φ}
    (inLeft : EveryEntry holds left) (inRight : EveryEntry holds right) :
    EveryEntry holds (if condition then left else right) := by
  split
  · exact inLeft
  · exact inRight

theorem map {ψ : Type} {wrap : ψ → φ} {slot : Option ψ}
    (inSlot : EveryEntry (fun func => holds (wrap func)) slot) :
    EveryEntry holds (slot.map wrap) := by
  intro func entry
  obtain ⟨inner, isInner, rfl⟩ := Option.map_eq_some_iff.mp entry
  exact inSlot inner isInner

end EveryEntry

/-- A slot of a table that contains a function. -/
def Filled {φ : Type} (slot : Option φ) : Prop := ∃ func, slot = some func

theorem Filled.some {φ : Type} (func : φ) : Filled (some func) := ⟨func, rfl⟩

theorem Filled.ite {φ : Type} {condition : Prop} [Decidable condition]
    {left right : Option φ} (inLeft : Filled left) (inRight : Filled right) :
    Filled (if condition then left else right) := by
  split
  · exact inLeft
  · exact inRight

theorem Filled.map {φ ψ : Type} {slot : Option φ} (filled : Filled slot)
    (wrap : φ → ψ) : Filled (slot.map wrap) := by
  obtain ⟨func, rfl⟩ := filled
  exact .some (wrap func)

/-- The status word of a CXU with the given state size and data-clean value. -/
def statusWord (stateSize : BitVec 16) (cs : CxCs) : CxStctxs :=
  { stateSize := stateSize
    reserved0 := 0
    dc := cs.dc
    version := 1
    r := 0 }

/-- A status word between calls: fixed fields intact and never in the middle of
an initialisation. -/
def Settled (stateSize : BitVec 16) (status : CxStctxs) : Prop :=
  ∃ cs, cs ≠ CxCs.preclean ∧ status = statusWord stateSize cs

theorem Settled.setDc {stateSize : BitVec 16} {status : CxStctxs}
    (settled : Settled stateSize status) (cs : CxCs) :
    { status with dc := cs.dc } = statusWord stateSize cs := by
  obtain ⟨_, _, rfl⟩ := settled
  rfl

theorem settled_statusWord (stateSize : BitVec 16) {cs : CxCs}
    (resting : cs ≠ .preclean) : Settled stateSize (statusWord stateSize cs) :=
  ⟨cs, resting, rfl⟩

namespace CxuStatics

variable {κ δ : Type} [DecidableEq κ]

/-- `cxu_stctx_status[inst_num][state_id] = word`. -/
def setStatus (statics : CxuStatics κ δ) (context : κ) (word : CxStctxs) :
    CxuStatics κ δ :=
  { statics with
    cxuStctxStatus := Function.update statics.cxuStctxStatus context word }

/-- `cxu_stctx_status[inst_num][state_id].sel.dc = cs`. -/
def setDc (statics : CxuStatics κ δ) (context : κ) (cs : CxCs) :
    CxuStatics κ δ :=
  statics.setStatus context
    { statics.cxuStctxStatus context with dc := cs.dc }

@[simp] theorem setStatus_data (statics : CxuStatics κ δ) (context : κ)
    (word : CxStctxs) : (statics.setStatus context word).data = statics.data :=
  rfl

@[simp] theorem setStatus_same (statics : CxuStatics κ δ) (context : κ)
    (word : CxStctxs) :
    (statics.setStatus context word).cxuStctxStatus context = word :=
  Function.update_self ..

@[simp] theorem setStatus_of_ne (statics : CxuStatics κ δ)
    {context other : κ} (different : other ≠ context) (word : CxStctxs) :
    (statics.setStatus context word).cxuStctxStatus other =
      statics.cxuStctxStatus other :=
  Function.update_of_ne different ..

@[simp] theorem setDc_data (statics : CxuStatics κ δ) (context : κ)
    (cs : CxCs) : (statics.setDc context cs).data = statics.data := rfl

@[simp] theorem setDc_same (statics : CxuStatics κ δ) (context : κ)
    (cs : CxCs) :
    (statics.setDc context cs).cxuStctxStatus context =
      { statics.cxuStctxStatus context with dc := cs.dc } :=
  setStatus_same ..

@[simp] theorem setDc_of_ne (statics : CxuStatics κ δ) {context other : κ}
    (different : other ≠ context) (cs : CxCs) :
    (statics.setDc context cs).cxuStctxStatus other =
      statics.cxuStctxStatus other :=
  setStatus_of_ne statics different _

/-- Every status word of a CXU is settled. -/
def AllSettled (stateSize : BitVec 16) (statics : CxuStatics κ δ) : Prop :=
  ∀ context, Settled stateSize (statics.cxuStctxStatus context)

theorem AllSettled.setStatus {stateSize : BitVec 16}
    {statics : CxuStatics κ δ} (settled : statics.AllSettled stateSize)
    (context : κ) {word : CxStctxs} (wordSettled : Settled stateSize word) :
    (statics.setStatus context word).AllSettled stateSize := by
  intro other
  by_cases same : other = context
  · subst same
    rwa [setStatus_same]
  · rw [setStatus_of_ne statics same]
    exact settled other

theorem AllSettled.setDc {stateSize : BitVec 16}
    {statics : CxuStatics κ δ} (settled : statics.AllSettled stateSize)
    (context : κ) {cs : CxCs} (resting : cs ≠ .preclean) :
    (statics.setDc context cs).AllSettled stateSize := by
  apply settled.setStatus
  rw [(settled context).setDc cs]
  exact settled_statusWord stateSize resting

end CxuStatics

/-! ## The status functions CF 1022 and CF 1023 -/

section StatusFunctions

variable {κ δ : Type}

def readStatusFunc (contextOf : CxSelidx → Option κ) :
    CxFunc (CxuStatics κ δ) := fun _ _ sysSel statics => do
  let context ← contextOf sysSel
  some (some (statics.cxuStctxStatus context).idx, statics)

theorem readStatusFunc_eq {contextOf : CxSelidx → Option κ}
    {sysSel : CxSelidx} {context : κ}
    (located : contextOf sysSel = some context) (a b : Word)
    (statics : CxuStatics κ δ) :
    readStatusFunc contextOf a b sysSel statics =
      some (some (statics.cxuStctxStatus context).idx, statics) := by
  simp only [readStatusFunc, located, Option.bind_eq_bind, Option.bind_some]

variable [DecidableEq κ]

def writeStatusFunc (contextOf : CxSelidx → Option κ)
    (initialStatusWord offStatusWord : CxStctxs)
    (reset : CxSelidx → CxuStatics κ δ → Option (CxuStatics κ δ)) :
    CxFunc (CxuStatics κ δ) := fun value _ sysSel statics => do
  let cxStatus := getCxDataClean .int value
  let context ← contextOf sysSel
  if cxStatus = CxCs.off.word then
    some (some 0, statics.setStatus context offStatusWord)
  else if cxStatus = CxCs.preclean.word then
    -- The initial word first, in case the status is read during the reset.
    let resetStatics ← reset sysSel (statics.setStatus context initialStatusWord)
    some (some 0, resetStatics.setDc context .dirty)
  else if cxStatus = CxCs.dirty.word then
    some (some 0, statics.setDc context .dirty)
  else if cxStatus = CxCs.clean.word then
    some (some 0, statics.setDc context .clean)
  else
    some (some 0, statics)

variable {contextOf : CxSelidx → Option κ}
  {initialStatusWord offStatusWord : CxStctxs}
  {reset : CxSelidx → CxuStatics κ δ → Option (CxuStatics κ δ)}

/-- CF 1022 by the value of the data-clean field it decodes. -/
theorem writeStatusFunc_eq {sysSel : CxSelidx} {context : κ}
    (located : contextOf sysSel = some context) {value : Word} {cs : CxCs}
    (decoded : (CxStctxs.ofIdx value).dc = cs.dc) (b : Word)
    (statics : CxuStatics κ δ) :
    writeStatusFunc contextOf initialStatusWord offStatusWord reset value b
        sysSel statics =
      match cs with
      | .off => some (some 0, statics.setStatus context offStatusWord)
      | .preclean =>
          (reset sysSel (statics.setStatus context initialStatusWord)).map
            fun resetStatics => (some 0, resetStatics.setDc context .dirty)
      | .dirty => some (some 0, statics.setDc context .dirty)
      | .clean => some (some 0, statics.setDc context .clean) := by
  have compare : ∀ other : CxCs,
      getCxDataClean .int value = other.word ↔ cs = other := by
    intro other
    rw [getCxDataClean_eq, decoded, CxCs.setWidth_dc_eq_word]
  simp only [writeStatusFunc, located, Option.bind_eq_bind, Option.bind_some,
    compare]
  cases cs with
  | off => rfl
  | preclean =>
      cases reset sysSel (statics.setStatus context initialStatusWord) <;> rfl
  | clean => rfl
  | dirty => rfl

/-- A write of any value but `CX_PRECLEAN` only sets the data-clean field. -/
theorem writeStatusFunc_resting {stateSize : BitVec 16}
    (offEq : offStatusWord = statusWord stateSize .off) {sysSel : CxSelidx}
    {context : κ} (located : contextOf sysSel = some context) {value : Word}
    {cs : CxCs} (decoded : (CxStctxs.ofIdx value).dc = cs.dc)
    (resting : cs ≠ .preclean) (b : Word) {statics : CxuStatics κ δ}
    (settled : Settled stateSize (statics.cxuStctxStatus context)) :
    writeStatusFunc contextOf initialStatusWord offStatusWord reset value b
        sysSel statics =
      some (some 0, statics.setStatus context (statusWord stateSize cs)) := by
  rw [writeStatusFunc_eq located decoded]
  cases cs with
  | off => rw [offEq]
  | preclean => exact absurd rfl resting
  | clean => rw [← settled.setDc .clean]; rfl
  | dirty => rw [← settled.setDc .dirty]; rfl

/-- A write of `CX_PRECLEAN` resets the data and leaves the context dirty. -/
theorem writeStatusFunc_preclean {stateSize : BitVec 16}
    (initialEq : initialStatusWord = statusWord stateSize .preclean)
    {sysSel : CxSelidx} {context : κ}
    (located : contextOf sysSel = some context) {value : Word}
    (decoded : (CxStctxs.ofIdx value).dc = CxCs.preclean.dc) (b : Word)
    {statics resetStatics : CxuStatics κ δ}
    (wasReset : reset sysSel (statics.setStatus context initialStatusWord) =
      some resetStatics)
    (statusKept : resetStatics.cxuStctxStatus =
      (statics.setStatus context initialStatusWord).cxuStctxStatus) :
    writeStatusFunc contextOf initialStatusWord offStatusWord reset value b
        sysSel statics =
      some (some 0,
        resetStatics.setStatus context (statusWord stateSize .dirty)) := by
  have settling : { resetStatics.cxuStctxStatus context with
      dc := CxCs.dirty.dc } = statusWord stateSize .dirty := by
    rw [statusKept, CxuStatics.setStatus_same, initialEq]
    rfl
  rw [writeStatusFunc_eq located decoded]
  simp only [wasReset, Option.map_some, CxuStatics.setDc, settling]

theorem writeStatusFunc_total {sysSel : CxSelidx} {context : κ}
    (located : contextOf sysSel = some context)
    (resets : ∀ statics, ∃ next, reset sysSel statics = some next)
    (value b : Word) (statics : CxuStatics κ δ) :
    ∃ answer, writeStatusFunc contextOf initialStatusWord offStatusWord reset
      value b sysSel statics = some answer := by
  obtain ⟨cs, decoded⟩ := CxCs.dc_surjective (CxStctxs.ofIdx value).dc
  obtain ⟨next, wasReset⟩ :=
    resets (statics.setStatus context initialStatusWord)
  rw [writeStatusFunc_eq located decoded.symm, wasReset]
  cases cs <;> exact ⟨_, rfl⟩

end StatusFunctions

/-! ## Functions that keep every status word settled -/

section KeepsSettled

variable {κ δ : Type}

def KeepsSettled (stateSize : BitVec 16) (func : CxFunc (CxuStatics κ δ)) :
    Prop :=
  ∀ {a b sysSel statics returned next}, statics.AllSettled stateSize →
    func a b sysSel statics = some (returned, next) →
    next.AllSettled stateSize

theorem cxFuncUndefined_keepsSettled (stateSize : BitVec 16) :
    KeepsSettled stateSize (cxFuncUndefined (σ := CxuStatics κ δ)) := by
  intro _ _ _ _ _ _ settled ran
  cases ran
  exact settled

theorem readStatusFunc_keepsSettled (stateSize : BitVec 16)
    (contextOf : CxSelidx → Option κ) :
    KeepsSettled (δ := δ) stateSize (readStatusFunc contextOf) := by
  intro _ _ _ _ _ _ settled ran
  obtain ⟨_, _, equality⟩ := Option.bind_eq_some_iff.mp ran
  cases equality
  exact settled

theorem writeStatusFunc_keepsSettled [DecidableEq κ] {stateSize : BitVec 16}
    {contextOf : CxSelidx → Option κ} {initialStatusWord offStatusWord : CxStctxs}
    {reset : CxSelidx → CxuStatics κ δ → Option (CxuStatics κ δ)}
    (offEq : offStatusWord = statusWord stateSize .off)
    (initialEq : initialStatusWord = statusWord stateSize .preclean)
    (statusKept : ∀ {sysSel statics next}, reset sysSel statics = some next →
      next.cxuStctxStatus = statics.cxuStctxStatus) :
    KeepsSettled stateSize
      (writeStatusFunc contextOf initialStatusWord offStatusWord reset) := by
  intro value b sysSel statics returned next settled ran
  obtain ⟨context, located, _⟩ := Option.bind_eq_some_iff.mp ran
  obtain ⟨cs, decoded⟩ := CxCs.dc_surjective (CxStctxs.ofIdx value).dc
  by_cases resting : cs = .preclean
  · subst resting
    have split := ran
    rw [writeStatusFunc_eq located decoded.symm b statics] at split
    obtain ⟨resetStatics, wasReset, _⟩ := Option.map_eq_some_iff.mp split
    have kept := statusKept wasReset
    rw [writeStatusFunc_preclean initialEq located decoded.symm b wasReset
      kept] at ran
    cases ran
    intro other
    by_cases same : other = context
    · subst same
      rw [CxuStatics.setStatus_same]
      exact settled_statusWord stateSize (by decide)
    · rw [CxuStatics.setStatus_of_ne _ same, kept,
        CxuStatics.setStatus_of_ne _ same]
      exact settled other
  · rw [writeStatusFunc_resting offEq located decoded.symm resting b
      (settled context)] at ran
    cases ran
    exact settled.setStatus context (settled_statusWord stateSize resting)

end KeepsSettled

end CxRuntime
