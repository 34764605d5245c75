import Mathlib.Logic.Relation
import Mathlib.Tactic.Common

/-!
# Runs of state machines

Two presentations of a machine are used: a step function that answers each
input and may fault (`run`), and a step relation whose runs are the reflexive
transitive closure `Relation.ReflTransGen`.  Each comes with the rule that lifts
a fact about one step to a whole run.
-/

namespace Transition

variable {σ τ ι ο ω : Type*}

/-- Feed a list of inputs to a machine that may fault; collect the answers. -/
def run (step : σ → ι → Option (σ × ο)) : σ → List ι → Option (σ × List ο)
  | state, [] => some (state, [])
  | state, input :: inputs =>
      (step state input).bind fun next =>
        (run step next.1 inputs).map fun rest => (rest.1, next.2 :: rest.2)

def runTotal (step : τ → ι → τ × ω) : τ → List ι → τ × List ω
  | state, [] => (state, [])
  | state, input :: inputs =>
      let next := step state input
      let rest := runTotal step next.1 inputs
      (rest.1, next.2 :: rest.2)

theorem run_map {ι' : Type*} (step : σ → ι → Option (σ × ο)) (name : ι' → ι)
    (inputs : List ι') (state : σ) :
    run step state (inputs.map name) =
      run (fun state input => step state (name input)) state inputs := by
  induction inputs generalizing state with
  | nil => rfl
  | cons input inputs induction =>
      simp only [List.map_cons, run, induction]

/-- If every allowed input succeeds, keeps an invariant and moves a view of the
state by `move`, then so does a whole run. -/
theorem run_view (step : σ → ι → Option (σ × ο)) (view : σ → τ)
    (move : τ → ι → τ) (invariant : σ → Prop) (allowed : ι → Prop)
    (steps : ∀ state input, invariant state → allowed input →
      ∃ next answer, step state input = some (next, answer) ∧
        invariant next ∧ view next = move (view state) input)
    {inputs : List ι} (inputsAllowed : ∀ input ∈ inputs, allowed input)
    {state : σ} (held : invariant state) :
    ∃ final answers, run step state inputs = some (final, answers) ∧
      invariant final ∧ view final = inputs.foldl move (view state) := by
  induction inputs generalizing state with
  | nil => exact ⟨state, [], rfl, held, rfl⟩
  | cons input inputs induction =>
      obtain ⟨next, answer, stepped, heldNext, moved⟩ :=
        steps state input held (inputsAllowed input List.mem_cons_self)
      obtain ⟨final, answers, ran, heldFinal, viewFinal⟩ := induction
        (fun other member =>
          inputsAllowed other (List.mem_cons_of_mem input member)) heldNext
      refine ⟨final, answer :: answers, ?_, heldFinal, ?_⟩
      · simp only [run, stepped, Option.bind_some, ran, Option.map_some]
      · rw [viewFinal, moved, List.foldl_cons]

/-- Forward simulation: if each step of the concrete machine succeeds and is
matched by the abstract one, so is each run. -/
theorem run_refines {step : σ → ι → Option (σ × ο)} {spec : τ → ι → τ × ω}
    (related : σ → τ → Prop) (translate : ω → ο)
    (simulates : ∀ state abstract input, related state abstract →
      ∃ next, step state input =
          some (next, translate (spec abstract input).2) ∧
        related next (spec abstract input).1)
    (inputs : List ι) {state : σ} {abstract : τ}
    (start : related state abstract) :
    ∃ final, run step state inputs =
        some (final, (runTotal spec abstract inputs).2.map translate) ∧
      related final (runTotal spec abstract inputs).1 := by
  induction inputs generalizing state abstract with
  | nil => exact ⟨state, rfl, start⟩
  | cons input inputs induction =>
      obtain ⟨next, stepped, nextRelated⟩ := simulates state abstract input start
      obtain ⟨final, ran, finalRelated⟩ := induction nextRelated
      refine ⟨final, ?_, finalRelated⟩
      simp only [run, stepped, Option.bind_some, ran, Option.map_some,
        runTotal, List.map_cons]

/-- The same for a specification that only takes some inputs: a run that it takes
is a run of the machine, with the same answers. -/
theorem run_simulates {step : σ → ι → Option (σ × ο)}
    {spec : τ → ι → Option (τ × ο)} (related : σ → τ → Prop)
    {inputs : List ι}
    (simulates : ∀ {state abstract input moved}, related state abstract →
      input ∈ inputs → spec abstract input = some moved →
      ∃ next, step state input = some (next, moved.2) ∧ related next moved.1)
    {state : σ} {abstract last : τ} {answers : List ο}
    (start : related state abstract)
    (taken : run spec abstract inputs = some (last, answers)) :
    ∃ final, run step state inputs = some (final, answers) ∧
      related final last := by
  induction inputs generalizing state abstract answers with
  | nil =>
      cases taken
      exact ⟨state, rfl, start⟩
  | cons input inputs induction =>
      obtain ⟨moved, isMoved, rest⟩ := Option.bind_eq_some_iff.mp taken
      obtain ⟨⟨_, later⟩, ranRest, equality⟩ := Option.map_eq_some_iff.mp rest
      cases equality
      obtain ⟨next, stepped, nextRelated⟩ :=
        simulates start List.mem_cons_self isMoved
      obtain ⟨final, ran, finalRelated⟩ := induction
        (fun held member =>
          simulates held (List.mem_cons_of_mem input member))
        nextRelated ranRest
      refine ⟨final, ?_, finalRelated⟩
      simp only [run, stepped, Option.bind_some, ran, Option.map_some]

theorem run_invariant {step : σ → ι → Option (σ × ο)} (invariant : σ → Prop)
    (preserved : ∀ state input next answer, invariant state →
      step state input = some (next, answer) → invariant next)
    {inputs : List ι} {state final : σ} {answers : List ο}
    (initial : invariant state)
    (ran : run step state inputs = some (final, answers)) :
    invariant final := by
  induction inputs generalizing state answers with
  | nil =>
      cases ran
      exact initial
  | cons input inputs induction =>
      obtain ⟨⟨next, answer⟩, stepped, rest⟩ := Option.bind_eq_some_iff.mp ran
      obtain ⟨⟨last, later⟩, ranRest, equality⟩ :=
        Option.map_eq_some_iff.mp rest
      cases equality
      exact induction (preserved state input next answer initial stepped) ranRest

theorem invariant_of_reachable {step : σ → σ → Prop} (invariant : σ → Prop)
    {start final : σ} (initial : invariant start)
    (preserved : ∀ state next, invariant state → step state next →
      invariant next)
    (reachable : Relation.ReflTransGen step start final) :
    invariant final := by
  induction reachable with
  | refl => exact initial
  | tail _ stepped induction => exact preserved _ _ induction stepped

theorem foldlM_view {step : σ → ι → Option σ} (view : σ → τ)
    (move : τ → ι → τ) (invariant : σ → Prop)
    (steps : ∀ state input, invariant state →
      ∃ next, step state input = some next ∧ invariant next ∧
        view next = move (view state) input)
    (inputs : List ι) {state : σ} (held : invariant state) :
    ∃ final, inputs.foldlM step state = some final ∧ invariant final ∧
      view final = inputs.foldl move (view state) := by
  induction inputs generalizing state with
  | nil => exact ⟨state, rfl, held, rfl⟩
  | cons input inputs induction =>
      obtain ⟨next, stepped, heldNext, moved⟩ := steps state input held
      obtain ⟨final, ran, heldFinal, viewFinal⟩ := induction heldNext
      refine ⟨final, ?_, heldFinal, ?_⟩
      · rw [List.foldlM_cons, stepped]
        exact ran
      · rw [viewFinal, moved, List.foldl_cons]

theorem foldlM_map {step : σ → ι → Option σ} {move : τ → ι → Option τ}
    (view : σ → τ)
    (steps : ∀ state input,
      (step state input).map view = move (view state) input)
    (inputs : List ι) (state : σ) :
    (inputs.foldlM step state).map view = inputs.foldlM move (view state) := by
  induction inputs generalizing state with
  | nil => rfl
  | cons input inputs induction =>
      rw [List.foldlM_cons, List.foldlM_cons, ← steps]
      cases stepped : step state input with
      | none => rfl
      | some next => exact induction next

/-- A step that stops exactly if the condition fails, and otherwise keeps the
invariant. -/
def Guards (step : σ → Option σ) (invariant : σ → Prop) (condition : Prop) :
    Prop :=
  ∀ state, invariant state →
    (condition → ∃ next, step state = some next) ∧
      ∀ next, step state = some next → condition ∧ invariant next

theorem Guards.foldlM {step : σ → ι → Option σ} {invariant : σ → Prop}
    {condition : ι → Prop}
    (guards : ∀ input, Guards (step · input) invariant (condition input))
    (inputs : List ι) :
    Guards (inputs.foldlM step) invariant
      (∀ input ∈ inputs, condition input) := by
  intro state held
  induction inputs generalizing state with
  | nil =>
      constructor
      · exact fun _ => ⟨state, rfl⟩
      · rintro _ ⟨⟩
        exact ⟨fun _ member => absurd member List.not_mem_nil, held⟩
  | cons first inputs induction =>
      constructor
      · intro conditions
        obtain ⟨next, stepped⟩ :=
          (guards first state held).1 (conditions first List.mem_cons_self)
        have kept := ((guards first state held).2 next stepped).2
        obtain ⟨final, ran⟩ := (induction next kept).1 fun input member =>
          conditions input (List.mem_cons_of_mem first member)
        refine ⟨final, ?_⟩
        simp only [List.foldlM_cons, stepped]
        exact ran
      · intro final ran
        simp only [List.foldlM_cons] at ran
        obtain ⟨next, stepped, rest⟩ := Option.bind_eq_some_iff.mp ran
        obtain ⟨isFirst, kept⟩ := (guards first state held).2 next stepped
        obtain ⟨areRest, keptFinal⟩ := (induction next kept).2 final rest
        refine ⟨?_, keptFinal⟩
        intro input member
        rcases List.mem_cons.mp member with rfl | later
        · exact isFirst
        · exact areRest input later

/-! ## Facts about every state of a run -/

section Along

variable {step : σ → ι → Option σ} {holds : σ → Prop} {allowed : σ → ι → Prop}

/-- A property of every state of a run, the first and the last included. -/
def Throughout (step : σ → ι → Option σ) (holds : σ → Prop) :
    σ → List ι → Prop
  | state, [] => holds state
  | state, input :: inputs =>
      holds state ∧
        ∀ next, step state input = some next →
          Throughout step holds next inputs

/-- A property of every step of a run that completes: the state before it and
its input. -/
def EachStep (step : σ → ι → Option σ) (allowed : σ → ι → Prop) :
    σ → List ι → Prop
  | _, [] => True
  | state, input :: inputs =>
      ∀ next, step state input = some next →
        allowed state input ∧ EachStep step allowed next inputs

theorem Throughout.first {state : σ} {inputs : List ι}
    (throughout : Throughout step holds state inputs) : holds state := by
  cases inputs with
  | nil => exact throughout
  | cons => exact throughout.1

theorem throughout_of_eachStep (invariant : σ → Prop)
    (implies : ∀ state, invariant state → holds state)
    (preserved : ∀ state input next, invariant state → allowed state input →
      step state input = some next → invariant next)
    {state : σ} (initial : invariant state) {inputs : List ι}
    (each : EachStep step allowed state inputs) :
    Throughout step holds state inputs := by
  induction inputs generalizing state with
  | nil => exact implies state initial
  | cons input inputs induction =>
      refine ⟨implies state initial, ?_⟩
      intro next stepped
      obtain ⟨isAllowed, rest⟩ := each next stepped
      exact induction (preserved state input next initial isAllowed stepped) rest

/-- If a step that is not allowed never joins two states with the property, the
property throughout means that every step is allowed. -/
theorem eachStep_of_throughout (invariant : σ → Prop)
    (preserved : ∀ state input next, invariant state →
      step state input = some next → invariant next)
    (detects : ∀ state input next, invariant state →
      step state input = some next → holds state → holds next →
      allowed state input)
    {state : σ} (initial : invariant state) {inputs : List ι}
    (throughout : Throughout step holds state inputs) :
    EachStep step allowed state inputs := by
  induction inputs generalizing state with
  | nil => trivial
  | cons input inputs induction =>
      intro next stepped
      obtain ⟨here, later⟩ := throughout
      have rest := later next stepped
      constructor
      · exact detects state input next initial stepped here rest.first
      · exact induction (preserved state input next initial stepped) rest

theorem EachStep.and {other : σ → ι → Prop} {state : σ} {inputs : List ι}
    (each : EachStep step allowed state inputs)
    (eachOther : EachStep step other state inputs) :
    EachStep step (fun state input => allowed state input ∧ other state input)
      state inputs := by
  induction inputs generalizing state with
  | nil => trivial
  | cons input inputs induction =>
      intro next stepped
      obtain ⟨here, rest⟩ := each next stepped
      obtain ⟨otherHere, otherRest⟩ := eachOther next stepped
      exact ⟨⟨here, otherHere⟩, induction rest otherRest⟩

end Along

end Transition
