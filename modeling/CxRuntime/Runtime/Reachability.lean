import CxRuntime.Lib.Transition
import CxRuntime.Runtime.Machine

/-!
# Reachable machines

Any order of calls of the runtime, selections and custom instructions.
-/

namespace CxRuntime

variable {σ : Type}

inductive RuntimeStep (platform : Platform σ) : Machine σ → Machine σ → Prop
  | opened {cxGuid cxShare userCxSel machine result next} :
      cxOpen platform cxGuid cxShare userCxSel machine = some (result, next) →
      RuntimeStep platform machine next
  | closed {cxSel machine next} : cxClose cxSel machine = some next →
      RuntimeStep platform machine next
  | selected {machine} (cxSel : Word) :
      RuntimeStep platform machine (machine.cxSel cxSel)
  | executed {machine next : Machine σ} {cfId rs1 rs2 returned} :
      machine.cxReg platform cfId rs1 rs2 = some (returned, next) →
      RuntimeStep platform machine next
  | cleared {machine} : RuntimeStep platform machine (cxErrorClear machine)

def RuntimeReachable (platform : Platform σ) (config : CxConfig) (cxus : σ) :
    Machine σ → Prop :=
  Relation.ReflTransGen (RuntimeStep platform) (cxInit config cxus)

variable {platform : Platform σ} {config : CxConfig} {machine next : Machine σ}

/-- A `cx_open` that returns changes at most one entry. -/
theorem Opens.cxMap_cases {cxGuid result : Word}
    (opens : Opens platform cxGuid machine result next) :
    next.cxMap = machine.cxMap ∨ ∃ cxId stateId entry,
      (machine.cxMap cxId).Allocates entry stateId cxUnavailState ∧
        next.cxMap = Function.update machine.cxMap cxId entry := by
  cases opens with
  | unknown => exact Or.inl rfl
  | stateless => exact Or.inl rfl
  | exhausted => exact Or.inl rfl
  | oversized found free isRead _ =>
      exact Or.inl (Machine.cxReadStatus_ran isRead).cxMap_eq
  | opened found free isRead _ isTaken isReady =>
      obtain ⟨entry, allocates, updated⟩ := opened_cxMap isRead isTaken isReady
      exact Or.inr ⟨_, _, entry, allocates, updated⟩

theorem hasConfig_step (has : machine.cxMap.HasConfig config)
    (step : RuntimeStep platform machine next) :
    next.cxMap.HasConfig config := by
  cases step with
  | opened completed =>
      rcases (cxOpen_iff.mp completed).cxMap_cases with
        same | ⟨_, _, _, allocates, updated⟩
      · rwa [same]
      · rw [updated]
        exact has.update allocates
  | closed completed =>
      rcases cxClose_cases completed with rfl | ⟨_, _, _, allocates, rfl⟩
      · exact has
      · exact has.update allocates
  | selected => exact has
  | executed completed =>
      rwa [(Machine.Ran.single completed).cxMap_eq]
  | cleared => exact has

/-- The static part of the table never changes. -/
theorem hasConfig_of_reachable {cxus : σ}
    (reachable : RuntimeReachable platform config cxus machine) :
    machine.cxMap.HasConfig config :=
  Transition.invariant_of_reachable
    (fun machine : Machine σ => machine.cxMap.HasConfig config)
    config.cxMap_hasConfig (fun _ _ => hasConfig_step) reachable

/-- What every instruction preserves holds of the CXUs of a reachable machine. -/
theorem cxus_of_reachable {cxus : σ} (holds : σ → Prop) (initial : holds cxus)
    (preserved : ∀ {cxSel cfId rs1 rs2 cxus returned after}, holds cxus →
      platform.cxReg cxSel cfId rs1 rs2 cxus = some (returned, after) →
      holds after)
    (reachable : RuntimeReachable platform config cxus machine) :
    holds machine.cxus := by
  refine Transition.invariant_of_reachable
    (fun machine : Machine σ => holds machine.cxus) initial ?_ reachable
  intro machine next held step
  cases step with
  | opened completed =>
      exact (cxOpen_iff.mp completed).invariant holds
        (fun _ _ => preserved) held
  | closed completed =>
      rcases cxClose_cases completed with rfl | ⟨_, _, _, _, rfl⟩ <;>
        exact held
  | selected => exact held
  | executed completed => exact preserved held (Machine.cxReg_eq_some completed)
  | cleared => exact held

end CxRuntime
