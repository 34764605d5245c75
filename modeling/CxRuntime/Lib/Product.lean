import CxRuntime.Lib.Transition
import Mathlib.Logic.Function.Basic

/-!
# Products of independent machines

A machine whose inputs each name one component and move only that component.
Whatever the order of the inputs, every component runs on the inputs that name
it and gives the answers it would give alone.
-/

namespace Product

variable {κ α β ι ω : Type*} [DecidableEq κ]

/-- The items tagged with a component, in their order. -/
def only (component : κ) (items : List (κ × β)) : List β :=
  items.filterMap fun item =>
    if item.1 = component then some item.2 else none

theorem only_cons_same (component : κ) (item : β) (items : List (κ × β)) :
    only component ((component, item) :: items) =
      item :: only component items := by
  simp [only]

theorem only_cons_other {component other : κ} (different : other ≠ component)
    (item : β) (items : List (κ × β)) :
    only component ((other, item) :: items) = only component items := by
  simp [only, different]

/-- Move the named component by the local step and tag the answer with it. -/
def step (localStep : α → ι → α × ω) (components : κ → α) (input : κ × ι) :
    (κ → α) × (κ × ω) :=
  let moved := localStep (components input.1) input.2
  (Function.update components input.1 moved.1, (input.1, moved.2))

/-- Each component of a run is the run of that component alone. -/
theorem run_only (localStep : α → ι → α × ω) (component : κ)
    (inputs : List (κ × ι)) (components : κ → α) :
    ((Transition.runTotal (step localStep) components inputs).1 component,
        only component
          (Transition.runTotal (step localStep) components inputs).2) =
      Transition.runTotal localStep (components component)
        (only component inputs) := by
  induction inputs generalizing components with
  | nil => rfl
  | cons input inputs induction =>
      obtain ⟨named, input⟩ := input
      have rest := induction (step localStep components (named, input)).1
      by_cases same : named = component
      · subst same
        have moved : (step localStep components (named, input)).1 named =
            (localStep (components named) input).1 := Function.update_self ..
        rw [moved] at rest
        rw [only_cons_same]
        simp only [Transition.runTotal, ← rest]
        exact congrArg (Prod.mk _) (only_cons_same ..)
      · have kept : (step localStep components (named, input)).1 component =
            components component :=
          Function.update_of_ne (fun equality => same equality.symm) ..
        rw [kept] at rest
        rw [only_cons_other same, ← rest]
        simp only [Transition.runTotal, step, only_cons_other same]

end Product
