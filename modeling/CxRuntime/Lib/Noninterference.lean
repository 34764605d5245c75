import CxRuntime.Lib.Product

/-!
# Noninterference

Parties give inputs to one machine.  `Unwinding` is a condition on single
inputs: what a party sees of a state decides what its inputs answer and what it
sees next, and the inputs of the others change nothing of it.  Under it each
party gets from any interleaving the answers that it gets alone.
-/

namespace Noninterference

variable {σ ι ω κ : Type*}

def tagged (step : σ → ι → Option (σ × ω)) (state : σ) (input : κ × ι) :
    Option (σ × (κ × ω)) :=
  (step state input.2).map fun moved => (moved.1, (input.1, moved.2))

/-- `same party` relates states that look the same to the party. -/
structure Unwinding (step : σ → ι → Option (σ × ω)) (allowed : κ → ι → Prop)
    (same : κ → σ → σ → Prop) : Prop where
  refl : ∀ party state, same party state state
  own : ∀ {party input}, allowed party input →
    ∀ {left right}, same party left right →
    ∃ answer nextLeft nextRight,
      step left input = some (nextLeft, answer) ∧
      step right input = some (nextRight, answer) ∧
      same party nextLeft nextRight
  others : ∀ {other input}, allowed other input →
    ∀ {state next answer}, step state input = some (next, answer) →
    ∀ {party}, party ≠ other →
    ∀ {alone}, same party state alone → same party next alone

namespace Unwinding

variable {step : σ → ι → Option (σ × ω)} {allowed : κ → ι → Prop}
  {same : κ → σ → σ → Prop}

theorem total (unwinding : Unwinding step allowed same) {party : κ}
    {input : ι} (isAllowed : allowed party input) (state : σ) :
    ∃ next answer, step state input = some (next, answer) := by
  obtain ⟨answer, next, _, stepped, _, _⟩ :=
    unwinding.own isAllowed (unwinding.refl party state)
  exact ⟨next, answer, stepped⟩

variable [DecidableEq κ]

/-- Each party sees its own run. -/
theorem run_alone (unwinding : Unwinding step allowed same)
    {inputs : List (κ × ι)}
    (allAllowed : ∀ input ∈ inputs, allowed input.1 input.2) (state : σ) :
    ∃ final answers,
      Transition.run (tagged step) state inputs = some (final, answers) ∧
      ∀ party {alone}, same party state alone →
        ∃ finalAlone,
          Transition.run step alone (Product.only party inputs) =
              some (finalAlone, Product.only party answers) ∧
            same party final finalAlone := by
  induction inputs generalizing state with
  | nil =>
      refine ⟨state, [], rfl, ?_⟩
      intro party alone looksSame
      exact ⟨alone, rfl, looksSame⟩
  | cons input inputs induction =>
      obtain ⟨mover, input⟩ := input
      have isAllowed := allAllowed (mover, input) List.mem_cons_self
      obtain ⟨next, answer, stepped⟩ := unwinding.total isAllowed state
      obtain ⟨final, answers, ran, rest⟩ := induction
        (fun other member => allAllowed other (List.mem_cons_of_mem _ member))
        next
      refine ⟨final, (mover, answer) :: answers, ?_, ?_⟩
      · simp only [Transition.run, tagged, stepped, Option.map_some,
          Option.bind_some, ran]
      · intro party alone looksSame
        by_cases mine : mover = party
        · subst mine
          obtain ⟨_, _, nextAlone, steppedBoth, steppedAlone, sameNext⟩ :=
            unwinding.own isAllowed looksSame
          cases stepped.symm.trans steppedBoth
          obtain ⟨finalAlone, ranAlone, sameFinal⟩ := rest mover sameNext
          refine ⟨finalAlone, ?_, sameFinal⟩
          simp only [Product.only_cons_same, Transition.run, steppedAlone,
            Option.bind_some, ranAlone, Option.map_some]
        · have notMover : party ≠ mover := fun equality => mine equality.symm
          have kept := unwinding.others isAllowed stepped notMover looksSame
          obtain ⟨finalAlone, ranAlone, sameFinal⟩ := rest party kept
          refine ⟨finalAlone, ?_, sameFinal⟩
          simp only [Product.only_cons_other mine, ranAlone]

end Unwinding

end Noninterference
