import CxRuntime.Runtime.MulaccPlatform
import CxRuntime.Zoo.AccumulatorIsolation

/-!
# Clients of mulacc

Any number of clients share mulacc through the runtime.  A client opens a
context, resets it once, and then works in bursts: it selects its context and
issues calls until somebody else selects theirs.  Opens and closes of all
clients may fall anywhere, also inside a burst.  Every value a client gets back
is computed from its own calls alone.
-/

namespace CxRuntime

variable {ρ ι : Type}

/-- The functions of mulacc that clients call. -/
inductive ClientOp where
  | mac
  | reset
  | zeroMac
  | readAcc
  deriving DecidableEq, Repr

def ClientOp.cfId : ClientOp → Nat
  | mac => 0
  | reset => 1
  | zeroMac => 3
  | readAcc => 4

structure ClientCall where
  op : ClientOp
  a : Word
  b : Word

/-- A live open: its selector and the calls issued on it, newest first. -/
structure Session where
  sel : Word
  calls : List ClientCall

structure ClientSystem (ι ρ : Type) where
  machine : Machine (mulacc.State × ρ)
  sessions : ι → Option Session
  /-- The client whose burst is running. -/
  burst : Option ι

/-! ## What a client expects -/

/-- The products of the `mac` calls since the last clearing call, as integers. -/
def sumSinceClear : List ClientCall → Int
  | [] => 0
  | call :: calls =>
      if call.op = .mac then sumSinceClear calls + call.a.toInt * call.b.toInt
      else 0

/-- What a call returns to a client that issued `calls` before, alone on its
accumulator; sums wrap to 32 bits. -/
def expected (calls : List ClientCall) (call : ClientCall) : Word :=
  match call.op with
  | .mac => BitVec.ofInt 32
      (sumSinceClear calls + call.a.toInt * call.b.toInt)
  | .zeroMac => BitVec.ofInt 32
      (sumSinceClear calls + call.a.toInt * call.b.toInt)
  | .readAcc => BitVec.ofInt 32 (sumSinceClear calls)
  | .reset => 0

/-- A session starts with a reset. -/
def Session.Allows (session : Session) (call : ClientCall) : Prop :=
  session.calls = [] → call.op = .reset

/-! ## The steps of the system -/

section Steps

variable [DecidableEq ι] (others : Platform ρ)

inductive ClientStep : ClientSystem ι ρ → ClientSystem ι ρ → Prop
  | granted {system client cxShare userCxSel result next} :
      system.sessions client = none →
      cxOpen (mulaccPlatform others) Mulacc.cxGuidMulacc cxShare userCxSel
        system.machine = some (result, next) →
      result ≠ -1 →
      ClientStep system
        { system with
          machine := next
          sessions := Function.update system.sessions client
            (some ⟨result, []⟩) }
  | refused {system cxShare userCxSel next} :
      cxOpen (mulaccPlatform others) Mulacc.cxGuidMulacc cxShare userCxSel
        system.machine = some (-1, next) →
      ClientStep system { system with machine := next }
  | selected {system client session} :
      system.sessions client = some session →
      ClientStep system
        { system with
          machine := system.machine.cxSel session.sel
          burst := some client }
  | called {system client session call returned next} :
      system.sessions client = some session →
      system.burst = some client →
      session.Allows call →
      system.machine.cxReg (mulaccPlatform others) call.op.cfId call.a call.b =
        some (returned, next) →
      ClientStep system
        { system with
          machine := next
          sessions := Function.update system.sessions client
            (some { session with calls := call :: session.calls }) }
  | closed {system client session next} :
      system.sessions client = some session →
      cxClose session.sel system.machine = some next →
      ClientStep system
        { machine := next
          sessions := Function.update system.sessions client none
          burst := if system.burst = some client then none else system.burst }

/-- The system after `cx_init`, before any open. -/
def ClientSystem.initial (ι : Type) (rest : ρ) : ClientSystem ι ρ :=
  { machine := cxInit sourceConfig (mulacc.initial, rest)
    sessions := fun _ => none
    burst := none }

def ClientReachable (rest : ρ) : ClientSystem ι ρ → Prop :=
  Relation.ReflTransGen (ClientStep others) (ClientSystem.initial ι rest)

end Steps

/-! ## One call -/

/-- The accumulator of a client that issued `calls`. -/
def sumWord (calls : List ClientCall) : Word :=
  BitVec.ofInt 32 (sumSinceClear calls)

private theorem sumSinceClear_mac (calls : List ClientCall) (a b : Word) :
    sumSinceClear (⟨.mac, a, b⟩ :: calls) =
      sumSinceClear calls + a.toInt * b.toInt :=
  if_pos rfl

private theorem sumSinceClear_clear {op : ClientOp} (clears : op ≠ .mac)
    (a b : Word)
    (calls : List ClientCall) : sumSinceClear (⟨op, a, b⟩ :: calls) = 0 :=
  if_neg clears

private theorem ofInt_add_mul (sum : Int) (a b : Word) :
    BitVec.ofInt 32 (sum + a.toInt * b.toInt) = BitVec.ofInt 32 sum + a * b := by
  rw [BitVec.ofInt_add, BitVec.ofInt_mul, BitVec.ofInt_toInt, BitVec.ofInt_toInt]

/-- A call on a context that holds the sum of the earlier calls returns what the
client expects and leaves the new sum. -/
theorem clientCall_eq {sysSel : CxSelidx} {context : mulacc.Context}
    (located : mulacc.contextOf sysSel = some context)
    {calls : List ClientCall} {call : ClientCall}
    (allowed : calls = [] → call.op = .reset) {state : mulacc.State}
    (summed : calls ≠ [] → state.data context = sumWord calls) :
    ∃ next, mulacc.call sysSel ⟨call.op.cfId, call.a, call.b⟩ state =
        some (some (expected calls call), next) ∧
      next.data context = sumWord (call :: calls) := by
  obtain ⟨op, a, b⟩ := call
  have started : op ≠ .reset → state.data context = sumWord calls :=
    fun notReset => summed fun empty => notReset (allowed empty)
  cases op with
  | mac =>
      have accEq := started (by decide)
      have called : mulacc.call sysSel ⟨ClientOp.mac.cfId, a, b⟩ state = _ :=
        Accumulator.accumulateFunc_eq located a b state
      rw [accEq, sumWord, ← ofInt_add_mul] at called
      refine ⟨_, called, ?_⟩
      rw [sumWord, sumSinceClear_mac]
      exact Accumulator.setAcc_same ..
  | reset =>
      have called : mulacc.call sysSel ⟨ClientOp.reset.cfId, a, b⟩ state = _ :=
        Accumulator.resetFunc_eq located a b state
      refine ⟨_, called, ?_⟩
      rw [sumWord, sumSinceClear_clear (by decide)]
      exact Accumulator.setAcc_same ..
  | zeroMac =>
      have accEq := started (by decide)
      have called : mulacc.call sysSel ⟨ClientOp.zeroMac.cfId, a, b⟩ state = _ :=
        Mulacc.zeroMacFunc_eq located a b state
      rw [accEq, sumWord, ← ofInt_add_mul] at called
      refine ⟨_, called, ?_⟩
      rw [sumWord, sumSinceClear_clear (by decide)]
      exact Accumulator.setAcc_same ..
  | readAcc =>
      have accEq := started (by decide)
      have called : mulacc.call sysSel ⟨ClientOp.readAcc.cfId, a, b⟩ state = _ :=
        Mulacc.readAccFunc_eq located a b state
      rw [accEq] at called
      refine ⟨_, called, ?_⟩
      rw [sumWord, sumSinceClear_clear (by decide)]
      exact Accumulator.setAcc_same ..

/-! ## The invariant -/

/-- The context of a session is taken and, once it was used, holds the sum of the
session's own calls. -/
def Owns (machine : Machine (mulacc.State × ρ)) (session : Session) : Prop :=
  ∃ stateId : Fin Mulacc.cxMulaccNumStates,
    session.sel = slotSel mulaccId stateId ∧
    (machine.cxMap mulaccId).availStateIds[stateId.val]? =
      some cxUnavailState ∧
    (session.calls ≠ [] →
      machine.cxus.1.data (mulaccContext stateId) = sumWord session.calls)

/-- Live sessions of different clients have different selectors. -/
def SessionsApart (sessions : ι → Option Session) : Prop :=
  ∀ ⦃left right leftSession rightSession⦄, left ≠ right →
    sessions left = some leftSession → sessions right = some rightSession →
    leftSession.sel ≠ rightSession.sel

structure ClientsInv (system : ClientSystem ι ρ) : Prop where
  hasConfig : system.machine.cxMap.HasConfig sourceConfig
  settled : MulaccSettled system.machine.cxus
  owned : ∀ {client session}, system.sessions client = some session →
    Owns system.machine session
  apart : SessionsApart system.sessions
  selected : ∀ {client}, system.burst = some client →
    ∃ session, system.sessions client = some session ∧
      system.machine.mcxSelector = session.sel

section Sessions

variable [DecidableEq ι] {sessions : ι → Option Session} {client : ι}

theorem live_of_update {changed : Option Session} {other : ι}
    {session : Session}
    (live : Function.update sessions client changed other = some session) :
    (other = client ∧ changed = some session) ∨
      (other ≠ client ∧ sessions other = some session) := by
  by_cases same : other = client
  · subst same
    rw [Function.update_self] at live
    exact Or.inl ⟨rfl, live⟩
  · rw [Function.update_of_ne same] at live
    exact Or.inr ⟨same, live⟩

theorem SessionsApart.update (apart : SessionsApart sessions)
    {session : Session}
    (fresh : ∀ {other otherSession}, other ≠ client →
      sessions other = some otherSession → otherSession.sel ≠ session.sel) :
    SessionsApart (Function.update sessions client (some session)) := by
  intro left right _ _ different leftLive rightLive
  rcases live_of_update leftLive with
    ⟨rfl, leftNew⟩ | ⟨leftOther, leftOld⟩
  · cases leftNew
    rcases live_of_update rightLive with ⟨same, _⟩ | ⟨rightOther, rightOld⟩
    · exact absurd same.symm different
    · exact (fresh rightOther rightOld).symm
  · rcases live_of_update rightLive with ⟨rfl, rightNew⟩ | ⟨_, rightOld⟩
    · cases rightNew
      exact fresh leftOther leftOld
    · exact apart different leftOld rightOld

private theorem SessionsApart.erase (apart : SessionsApart sessions) :
    SessionsApart (Function.update sessions client none) := by
  intro left right _ _ different leftLive rightLive
  rcases live_of_update leftLive with ⟨_, nothing⟩ | ⟨_, leftOld⟩
  · cases nothing
  · rcases live_of_update rightLive with ⟨_, nothing⟩ | ⟨_, rightOld⟩
    · cases nothing
    · exact apart different leftOld rightOld

end Sessions

variable {others : Platform ρ} {machine next : Machine (mulacc.State × ρ)}

private theorem mulaccSel_ne {left right : Fin Mulacc.cxMulaccNumStates}
    (different : left ≠ right) :
    slotSel mulaccId left ≠ slotSel mulaccId right := by
  intro equality
  have same := (slotSel_inj (left.isLt.trans (by decide))
    (right.isLt.trans (by decide))).mp equality
  exact different (Fin.ext same.2)

/-- A step on one state of mulacc spares the sessions of the other. -/
theorem Owns.of_other {session : Session} (owns : Owns machine session)
    {stateId : Fin Mulacc.cxMulaccNumStates}
    (different : session.sel ≠ slotSel mulaccId stateId)
    (availKept : ∀ other : Fin Mulacc.cxMulaccNumStates, other ≠ stateId →
      (next.cxMap mulaccId).availStateIds[other.val]? =
        (machine.cxMap mulaccId).availStateIds[other.val]?)
    (agree : Accumulator.AgreeOff (mulaccContext stateId) machine.cxus.1
      next.cxus.1) : Owns next session := by
  obtain ⟨own, selEq, taken, summed⟩ := owns
  have otherState : own ≠ stateId := by
    rintro rfl
    exact different selEq
  have otherContext : mulaccContext own ≠ mulaccContext stateId :=
    fun same => otherState (Prod.mk.inj same).2
  refine ⟨own, selEq, ?_, ?_⟩
  · rw [availKept own otherState]
    exact taken
  · intro used
    rw [(agree _ otherContext).1]
    exact summed used

private theorem Owns.of_sameContexts {session : Session}
    (owns : Owns machine session)
    (sameMap : next.cxMap = machine.cxMap)
    (sameCxus : next.cxus = machine.cxus) : Owns next session := by
  obtain ⟨own, selEq, taken, summed⟩ := owns
  exact ⟨own, selEq, by rwa [sameMap], by rwa [sameCxus]⟩

theorem cxReg_agreeOff {stateId : Fin Mulacc.cxMulaccNumStates} {cfId : Nat}
    {rs1 rs2 : Word} {cxus after : mulacc.State × ρ} {returned : Returned}
    (answered : (mulaccPlatform others).cxReg (slotSel mulaccId stateId) cfId
      rs1 rs2 cxus = some (returned, after)) :
    Accumulator.AgreeOff (mulaccContext stateId) cxus.1 after.1 := by
  rw [mulaccPlatform_slotSel] at answered
  obtain ⟨⟨_, statics⟩, called, equality⟩ := Option.map_eq_some_iff.mp answered
  cases equality
  exact mulacc_call_agreeOff (mulacc_located stateId) called

/-- An open of mulacc either changes nothing or takes a free state, whose context
is the only one it writes. -/
theorem mulacc_opens_cases (has : machine.cxMap.HasConfig sourceConfig)
    (settled : MulaccSettled machine.cxus) {result : Word}
    (opens : Opens (mulaccPlatform others) Mulacc.cxGuidMulacc machine result
      next) :
    (result = -1 ∧ next = machine) ∨
      ∃ stateId : Fin Mulacc.cxMulaccNumStates,
        result = slotSel mulaccId stateId ∧
        (machine.cxMap mulaccId).availStateIds[stateId.val]? =
          some cxAvailState ∧
        (∃ entry, (machine.cxMap mulaccId).Allocates entry stateId
            cxUnavailState ∧
          next.cxMap = Function.update machine.cxMap mulaccId entry) ∧
        next.mcxSelector = machine.mcxSelector ∧
        Accumulator.AgreeOff (mulaccContext stateId) machine.cxus.1
          next.cxus.1 := by
  have local_ := opens.invariant
    (fun cxus : mulacc.State × ρ => ∀ stateId : Fin Mulacc.cxMulaccNumStates,
      (machine.cxMap mulaccId).firstFree = some stateId.val →
      Accumulator.AgreeOff (mulaccContext stateId) machine.cxus.1 cxus.1)
    (by
      intro cxId free found isFree _ _ _ _ _ _ held answered stateId isState
      obtain rfl := eq_mulaccId_of_found has found
      cases isFree.symm.trans isState
      exact (held stateId isState).trans (cxReg_agreeOff answered))
    (fun _ _ => Accumulator.AgreeOff.refl _ _)
  cases opens with
  | unknown => exact Or.inl ⟨rfl, rfl⟩
  | stateless found stateless =>
      obtain rfl := eq_mulaccId_of_found has found
      exact absurd stateless (mulacc_stateful has)
  | exhausted => exact Or.inl ⟨rfl, rfl⟩
  | oversized found isFree isRead large =>
      exact absurd large (mulacc_statusFits has settled found isFree isRead)
  | @opened _ free _ _ _ _ found isFree isRead _ isTaken isReady =>
      obtain rfl := eq_mulaccId_of_found has found
      obtain ⟨entry, allocates, updated⟩ := opened_cxMap isRead isTaken isReady
      exact Or.inr ⟨⟨free, mulacc_state_lt has isFree⟩, rfl,
        (CxEntry.firstFree_eq_some_iff.mp isFree).1,
        ⟨entry, allocates, updated⟩, rfl, local_ _ isFree⟩

private theorem Owns.sel_ne_of_available {session : Session}
    (owns : Owns machine session) {stateId : Fin Mulacc.cxMulaccNumStates}
    (available : (machine.cxMap mulaccId).availStateIds[stateId.val]? =
      some cxAvailState) : session.sel ≠ slotSel mulaccId stateId := by
  obtain ⟨own, selEq, taken, _⟩ := owns
  intro equality
  by_cases same : own = stateId
  · subst same
    exact absurd (taken.symm.trans available) (by decide)
  · exact mulaccSel_ne same (selEq.symm.trans equality)

/-- Updating the entry of mulacc at one state keeps the availability of the
other. -/
theorem avail_kept {stateId : Fin Mulacc.cxMulaccNumStates} {value : Word}
    {entry : CxEntry}
    (allocates : (machine.cxMap mulaccId).Allocates entry stateId value)
    (updated : next.cxMap = Function.update machine.cxMap mulaccId entry)
    (other : Fin Mulacc.cxMulaccNumStates) (different : other ≠ stateId) :
    (next.cxMap mulaccId).availStateIds[other.val]? =
      (machine.cxMap mulaccId).availStateIds[other.val]? := by
  rw [updated]
  exact CxMap.avail_update_of_ne allocates
    fun both => different (Fin.ext both.2)

namespace ClientsInv

variable {system : ClientSystem ι ρ}

theorem initial (rest : ρ) : ClientsInv (ClientSystem.initial ι rest) where
  hasConfig := sourceConfig.cxMap_hasConfig
  settled := mulacc.initial_settled
  owned := fun live => nomatch live
  apart := fun _ _ _ _ _ live => nomatch live
  selected := fun running => nomatch running

private theorem opened_settled (inv : ClientsInv system) {result : Word}
    (opens : Opens (mulaccPlatform others) Mulacc.cxGuidMulacc system.machine
      result next) : MulaccSettled next.cxus :=
  opens.invariant MulaccSettled (fun _ _ => mulaccPlatform_settled) inv.settled

private theorem refused (inv : ClientsInv system)
    (opens : Opens (mulaccPlatform others) Mulacc.cxGuidMulacc system.machine
      (-1) next) : ClientsInv { system with machine := next } := by
  rcases mulacc_opens_cases inv.hasConfig inv.settled opens with
    ⟨_, rfl⟩ | ⟨stateId, succeeded, _⟩
  · exact inv
  · exact absurd succeeded.symm (slotSel_ne_neg_one mulaccId stateId)

private theorem select (inv : ClientsInv system) {client : ι}
    {session : Session}
    (live : system.sessions client = some session) :
    ClientsInv { system with
      machine := system.machine.cxSel session.sel
      burst := some client } := by
  refine ⟨inv.hasConfig, inv.settled, ?_, inv.apart, ?_⟩
  · exact fun live => (inv.owned live).of_sameContexts rfl rfl
  · intro other running
    cases running
    exact ⟨session, live, rfl⟩

variable [DecidableEq ι]

private theorem granted (inv : ClientsInv system) {client : ι} {result : Word}
    (idle : system.sessions client = none)
    (opens : Opens (mulaccPlatform others) Mulacc.cxGuidMulacc system.machine
      result next) (succeeded : result ≠ -1) :
    ClientsInv { system with
      machine := next
      sessions := Function.update system.sessions client
        (some ⟨result, []⟩) } := by
  have settled := inv.opened_settled opens
  rcases mulacc_opens_cases inv.hasConfig inv.settled opens with
    ⟨failed, _⟩ |
      ⟨stateId, rfl, available, ⟨entry, allocates, updated⟩, selector, agree⟩
  · exact absurd failed succeeded
  have below : stateId.val < (system.machine.cxMap mulaccId).numStates :=
    CxEntry.avail_lt available
  have apartFromNew : ∀ {other session}, system.sessions other = some session →
      session.sel ≠ slotSel mulaccId stateId :=
    fun live => (inv.owned live).sel_ne_of_available available
  refine ⟨?_, settled, ?_, inv.apart.update fun _ live => apartFromNew live, ?_⟩
  · dsimp only
    rw [updated]
    exact inv.hasConfig.update allocates
  · intro other session live
    rcases live_of_update live with ⟨_, new⟩ | ⟨_, old⟩
    · cases new
      refine ⟨stateId, rfl, ?_, fun used => absurd rfl used⟩
      dsimp only
      rw [updated, Function.update_self]
      exact allocates.avail_same below
    · exact (inv.owned old).of_other (apartFromNew old)
        (avail_kept allocates updated) agree
  · intro other running
    obtain ⟨session, live, isSelected⟩ := inv.selected running
    have different : other ≠ client := by
      rintro rfl
      rw [idle] at live
      cases live
    refine ⟨session, ?_, selector.trans isSelected⟩
    dsimp only
    rwa [Function.update_of_ne different]

/-- A call in a burst succeeds, returns what the client expects, and keeps the
invariant. -/
theorem call (inv : ClientsInv system) {client : ι} {session : Session}
    (live : system.sessions client = some session)
    (running : system.burst = some client) {call : ClientCall}
    (allowed : session.Allows call) :
    ∃ next, system.machine.cxReg (mulaccPlatform others) call.op.cfId call.a
        call.b = some (some (expected session.calls call), next) ∧
      ClientsInv { system with
        machine := next
        sessions := Function.update system.sessions client
          (some { session with calls := call :: session.calls }) } := by
  obtain ⟨other, otherLive, isSelected⟩ := inv.selected running
  cases live.symm.trans otherLive
  obtain ⟨stateId, selEq, taken, summed⟩ := inv.owned live
  obtain ⟨statics, called, summedNext⟩ :=
    clientCall_eq (mulacc_located stateId) allowed summed
  have answered : (mulaccPlatform others).cxReg (slotSel mulaccId stateId)
      call.op.cfId call.a call.b system.machine.cxus =
        some (some (expected session.calls call),
          (statics, system.machine.cxus.2)) := by
    rw [mulaccPlatform_slotSel, called]
    rfl
  have selectedSlot :
      system.machine.mcxSelector = slotSel mulaccId stateId :=
    isSelected.trans selEq
  have executed : system.machine.cxReg (mulaccPlatform others) call.op.cfId
      call.a call.b = some (some (expected session.calls call),
        { system.machine with cxus := (statics, system.machine.cxus.2) }) := by
    rw [← selectedSlot] at answered
    exact Option.map_eq_some_iff.mpr ⟨_, answered, rfl⟩
  have agree := cxReg_agreeOff answered
  have apartFromOwn : ∀ {other otherSession}, other ≠ client →
      system.sessions other = some otherSession →
      otherSession.sel ≠ session.sel :=
    fun different otherLive => inv.apart different otherLive live
  refine ⟨_, executed, inv.hasConfig,
    mulaccPlatform_settled inv.settled answered, ?_,
    inv.apart.update apartFromOwn, ?_⟩
  · intro other otherSession otherLive
    rcases live_of_update otherLive with ⟨_, new⟩ | ⟨different, old⟩
    · cases new
      exact ⟨stateId, selEq, taken, fun _ => summedNext⟩
    · have selNe : otherSession.sel ≠ slotSel mulaccId stateId := by
        rw [← selEq]
        exact apartFromOwn different old
      exact (inv.owned old).of_other selNe (fun _ _ => rfl) agree
  · intro other otherRunning
    dsimp only at otherRunning ⊢
    cases running.symm.trans otherRunning
    exact ⟨_, Function.update_self .., isSelected⟩

private theorem close (inv : ClientsInv system) {client : ι} {session : Session}
    (live : system.sessions client = some session)
    (closed : cxClose session.sel system.machine = some next) :
    ClientsInv
      { machine := next
        sessions := Function.update system.sessions client none
        burst :=
          if system.burst = some client then none else system.burst } := by
  obtain ⟨stateId, selEq, taken, _⟩ := inv.owned live
  obtain ⟨entry, allocates, isClosed⟩ :=
    cxClose_stateful (CxEntry.avail_lt taken) (stateId.isLt.trans (by decide))
  rw [selEq, isClosed] at closed
  cases closed
  refine ⟨inv.hasConfig.update allocates, inv.settled, ?_, inv.apart.erase, ?_⟩
  · intro other otherSession otherLive
    rcases live_of_update otherLive with ⟨_, nothing⟩ | ⟨different, old⟩
    · cases nothing
    · have selNe : otherSession.sel ≠ slotSel mulaccId stateId := by
        rw [← selEq]
        exact inv.apart different old live
      exact (inv.owned old).of_other selNe (avail_kept allocates rfl)
        (Accumulator.AgreeOff.refl _ _)
  · intro other running
    dsimp only at running ⊢
    split at running
    · cases running
    · rename_i notRunning
      obtain ⟨otherSession, otherLive, isSelected⟩ := inv.selected running
      have different : other ≠ client := by
        rintro rfl
        exact notRunning running
      exact ⟨otherSession, by rwa [Function.update_of_ne different],
        isSelected⟩

end ClientsInv

theorem clientsInv_step [DecidableEq ι] {system after : ClientSystem ι ρ}
    (inv : ClientsInv system) (step : ClientStep others system after) :
    ClientsInv after := by
  cases step with
  | granted idle completed succeeded =>
      exact inv.granted idle (cxOpen_iff.mp completed) succeeded
  | refused completed => exact inv.refused (cxOpen_iff.mp completed)
  | selected live => exact inv.select live
  | called live running allowed executed =>
      obtain ⟨next, expectedEq, nextInv⟩ := inv.call live running allowed
      cases executed.symm.trans expectedEq
      exact nextInv
  | closed live completed => exact inv.close live completed

theorem clientsInv_of_reachable [DecidableEq ι] {rest : ρ}
    {system : ClientSystem ι ρ} (reachable : ClientReachable others rest system) :
    ClientsInv system :=
  Transition.invariant_of_reachable ClientsInv (.initial rest)
    (fun _ _ => clientsInv_step) reachable

/-- Whatever the interleaving, a client is answered as if it ran alone. -/
theorem clients_isolated [DecidableEq ι] {rest : ρ} {system : ClientSystem ι ρ}
    (reachable : ClientReachable others rest system) {client : ι}
    {session : Session} (live : system.sessions client = some session)
    (running : system.burst = some client) {call : ClientCall}
    (allowed : session.Allows call) :
    ∃ next, system.machine.cxReg (mulaccPlatform others) call.op.cfId call.a
      call.b = some (some (expected session.calls call), next) := by
  obtain ⟨next, executed, _⟩ :=
    (clientsInv_of_reachable reachable).call live running allowed
  exact ⟨next, executed⟩

/-- Two clients take turns, each on a context of its own. -/
theorem clients_isolated_interleaved :
    ∃ system : ClientSystem Bool Unit, ∃ next,
      ClientReachable bareOthers () system ∧
      system.sessions false =
        some ⟨0x10000002, [⟨.mac, 3, 4⟩, ⟨.reset, 0, 0⟩]⟩ ∧
      system.sessions true =
        some ⟨0x10010002, [⟨.mac, 5, 6⟩, ⟨.reset, 0, 0⟩]⟩ ∧
      system.machine.cxReg (mulaccPlatform bareOthers) 0 1 1 =
        some (some 13, next) := by
  have initial : ClientReachable bareOthers () (ClientSystem.initial Bool ()) :=
    .refl
  have opens : ClientReachable bareOthers () _ :=
    initial.tail (@ClientStep.granted _ _ _ _ _ false 0 0 0x10000002 _ rfl rfl
      (by decide))
  have both : ClientReachable bareOthers () _ :=
    opens.tail (@ClientStep.granted _ _ _ _ _ true 0 0 0x10010002 _ rfl rfl
      (by decide))
  have selects : ClientReachable bareOthers () _ :=
    both.tail (@ClientStep.selected _ _ _ _ _ false ⟨0x10000002, []⟩ rfl)
  have resets : ClientReachable bareOthers () _ :=
    selects.tail (@ClientStep.called _ _ _ _ _ false ⟨0x10000002, []⟩
      ⟨.reset, 0, 0⟩ _ _ rfl rfl (fun _ => rfl) rfl)
  have adds : ClientReachable bareOthers () _ :=
    resets.tail (@ClientStep.called _ _ _ _ _ false
      ⟨0x10000002, [⟨.reset, 0, 0⟩]⟩ ⟨.mac, 3, 4⟩ _ _ rfl rfl nofun rfl)
  have switches : ClientReachable bareOthers () _ :=
    adds.tail (@ClientStep.selected _ _ _ _ _ true ⟨0x10010002, []⟩ rfl)
  have otherResets : ClientReachable bareOthers () _ :=
    switches.tail (@ClientStep.called _ _ _ _ _ true ⟨0x10010002, []⟩
      ⟨.reset, 0, 0⟩ _ _ rfl rfl (fun _ => rfl) rfl)
  have otherAdds : ClientReachable bareOthers () _ :=
    otherResets.tail (@ClientStep.called _ _ _ _ _ true
      ⟨0x10010002, [⟨.reset, 0, 0⟩]⟩ ⟨.mac, 5, 6⟩ _ _ rfl rfl nofun rfl)
  have back : ClientReachable bareOthers () _ :=
    otherAdds.tail (@ClientStep.selected _ _ _ _ _ false
      ⟨0x10000002, [⟨.mac, 3, 4⟩, ⟨.reset, 0, 0⟩]⟩ rfl)
  obtain ⟨next, executed⟩ :=
    @clients_isolated _ _ _ _ _ _ back false
      ⟨0x10000002, [⟨.mac, 3, 4⟩, ⟨.reset, 0, 0⟩]⟩ rfl rfl ⟨.mac, 1, 1⟩ nofun
  exact ⟨_, next, back, rfl, rfl, executed⟩

end CxRuntime
