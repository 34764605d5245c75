import CxRuntime.Runtime.Sharing

/-!
# Closing selectors that are not open

`cx_close` checks the CX id of its argument and whether that CX has states, and
nothing else: neither the range of the state id, nor whether the state is in
use, nor the other fields.  So a word that is no live selector is ignored
exactly if it names no stateful CX.
-/

namespace CxRuntime

variable {σ : Type} {platform : Platform σ} {config : CxConfig}
  {machine : Machine σ}

def ClosesNothing (cxSel : Word) (machine : Machine σ) : Prop :=
  ∃ next, cxClose cxSel machine = some next ∧ next.cxMap = machine.cxMap

namespace CxEntry

private theorem closeState_ne {entry next : CxEntry} {stateId : Nat}
    (closed : entry.closeState stateId = some next) : next ≠ entry := by
  intro unchanged
  obtain ⟨released, stored, rest⟩ := Option.bind_eq_some_iff.mp closed
  obtain ⟨info, found, rest⟩ := Option.bind_eq_some_iff.mp rest
  rw [stateInfo_of_setAvail stored] at found
  have below : stateId < released.stateInfo.length := by
    rw [stateInfo_of_setAvail stored]
    exact (List.getElem?_eq_some_iff.mp found).1
  unfold setInfo at rest
  split at rest
  · cases rest
    have moved := congrArg (fun other => other.stateInfo[stateId]?) unchanged
    simp only [List.getElem?_set_self below, found, Option.some.injEq] at moved
    have counters : info.counter - 1 = info.counter :=
      congrArg CxStateInfo.counter moved
    bv_omega
  · cases rest

end CxEntry

private theorem closesNothing_of_stateless {cxSel : Word}
    (has : machine.cxMap.HasConfig config)
    (stateless : config.isStateful cxSel = false) :
    ClosesNothing cxSel machine := by
  refine ⟨machine, ?_, rfl⟩
  by_cases inTable : (getCxId .int cxSel).toNat < numCx
  · have isEmpty : (machine.cxMap ⟨_, inTable⟩).numStates = 0 := by
      rw [(has _).2]
      simpa [CxConfig.isStateful, inTable] using stateless
    simp only [cxClose, dif_pos inTable, if_pos isEmpty]
  · simp only [cxClose, dif_neg inTable]

private theorem not_closesNothing_of_stateful {cxSel : Word}
    (has : machine.cxMap.HasConfig config)
    (stateful : config.isStateful cxSel = true) :
    ¬ClosesNothing cxSel machine := by
  intro closes
  obtain ⟨next, closed, same⟩ := closes
  by_cases inTable : (getCxId .int cxSel).toNat < numCx
  · have nonempty : (machine.cxMap ⟨_, inTable⟩).numStates ≠ 0 := by
      rw [(has _).2]
      simpa [CxConfig.isStateful, inTable] using stateful
    simp only [cxClose, dif_pos inTable, if_neg nonempty] at closed
    obtain ⟨entry, isClosed, rfl⟩ := Option.map_eq_some_iff.mp closed
    have unchanged : Function.update machine.cxMap ⟨_, inTable⟩ entry
        ⟨_, inTable⟩ = machine.cxMap ⟨_, inTable⟩ := congrFun same _
    rw [Function.update_self] at unchanged
    exact CxEntry.closeState_ne isClosed unchanged
  · simp [CxConfig.isStateful, inTable] at stateful

/-- In every reachable machine, closing a word, live or not, does nothing exactly
if the word names no CX with states. -/
theorem closesNothing_iff_not_stateful {cxus : σ}
    (reachable : RuntimeReachable platform config cxus machine)
    (cxSel : Word) :
    ClosesNothing cxSel machine ↔ config.isStateful cxSel = false := by
  have has := hasConfig_of_reachable reachable
  constructor
  · intro closes
    apply Bool.eq_false_of_not_eq_true
    intro stateful
    exact not_closesNothing_of_stateful has stateful closes
  · exact closesNothing_of_stateless has

/-- With a state of `mulacc` open: a word of no CX, and a live selector. -/
theorem closesNothing_iff_not_stateful_opened :
    ∃ machine,
      cxOpen oneWordPlatform Mulacc.cxGuidMulacc 0 0 (cxInit sourceConfig ()) =
          some (0x10000002, machine) ∧
        ClosesNothing 0x100000FF machine ∧
        ¬ClosesNothing 0x10000002 machine := by
  obtain ⟨machine, opened⟩ : ∃ machine,
      cxOpen oneWordPlatform Mulacc.cxGuidMulacc 0 0 (cxInit sourceConfig ()) =
        some (0x10000002, machine) := ⟨_, rfl⟩
  have closes := @closesNothing_iff_not_stateful _ oneWordPlatform
    sourceConfig machine () (.single (.opened opened))
  refine ⟨machine, opened, (closes _).mpr (by decide), ?_⟩
  rw [closes]
  decide

/-- With state 0 of `mulacc` open, closing its selector with the version bits
cleared makes the state available again; with `state_id` 255 the close leaves
the arrays. -/
theorem stray_close_frees_state :
    ∃ ledger : ShareLedger Unit,
      (ShareLedger.init sourceConfig ()).step oneWordPlatform
          (.cxOpen Mulacc.cxGuidMulacc 0 0) = some ledger ∧
        ledger.live = [⟨0x10000002, 0⟩] ∧
        ¬ClosesNothing 0x00000002 ledger.machine ∧
        (∃ next, cxClose 0x00000002 ledger.machine = some next ∧
          (next.cxMap mulaccId).availStateIds[0]? = some cxAvailState) ∧
        cxClose 0x10FF0002 ledger.machine = none := by
  refine ⟨_, rfl, rfl, ?_, ⟨_, rfl, rfl⟩, rfl⟩
  intro closes
  obtain ⟨next, closed, same⟩ := closes
  cases closed
  have moved := congrArg CxEntry.stateInfo (congrFun same mulaccId)
  have counters := congrArg (List.map CxStateInfo.counter) moved
  exact absurd counters (by decide)

end CxRuntime
