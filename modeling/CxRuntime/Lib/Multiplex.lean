import CxRuntime.Lib.Product

/-!
# Multiplexing machines on slots

Users with a machine each share a device whose slots hold some of the machines.
A user whose machine is in no slot is given one: the occupant is spilled to its
image and the image of the user is filled in.  `Laws` says what spill, fill and
call do to the machine that a slot and an image stand for; under them every user
gets the answers that its machine gives alone, whatever slots are chosen.
-/

namespace Multiplex

variable {σ χ κ β α ι ω : Type*}

/-- Which user occupies a slot, and in which slot a user resides. -/
structure Placement (χ κ : Type*) where
  occupant : χ → Option κ
  home : κ → Option χ
  agree : ∀ slot user, home user = some slot ↔ occupant slot = some user

namespace Placement

def empty : Placement χ κ where
  occupant := fun _ => none
  home := fun _ => none
  agree := by simp

variable [DecidableEq χ]

/-- The occupant of a slot leaves it. -/
def vacate (placement : Placement χ κ) (slot : χ) : Placement χ κ where
  occupant := fun other =>
    if other = slot then none else placement.occupant other
  home := fun user =>
    if placement.home user = some slot then none else placement.home user
  agree := by
    intro other user
    have agree := placement.agree other user
    by_cases same : other = slot
    · subst same
      simp
    · by_cases left : placement.home user = some slot
      · have elsewhere : placement.occupant other ≠ some user := by
          intro occupied
          rw [agree.mpr occupied] at left
          exact same (Option.some.inj left)
        simp [same, left, elsewhere]
      · simpa [same, left] using agree

theorem home_vacate_of_ne (placement : Placement χ κ) {slot : χ} {user : κ}
    (elsewhere : placement.home user ≠ some slot) :
    (placement.vacate slot).home user = placement.home user := by
  simp [vacate, elsewhere]

theorem home_vacate_of_eq (placement : Placement χ κ) {slot : χ} {user : κ}
    (here : placement.home user = some slot) :
    (placement.vacate slot).home user = none := by
  simp [vacate, here]

/-- Nobody resides in a vacated slot. -/
theorem home_vacate_ne (placement : Placement χ κ) (slot : χ) (user : κ) :
    (placement.vacate slot).home user ≠ some slot := by
  intro resides
  have left := ((placement.vacate slot).agree slot user).mp resides
  simp [vacate] at left

variable [DecidableEq κ]

/-- A user moves to a slot, whose occupant leaves. -/
def assign (placement : Placement χ κ) (slot : χ) (user : κ) :
    Placement χ κ where
  occupant := fun other =>
    if other = slot then some user
    else if placement.occupant other = some user then none
    else placement.occupant other
  home := fun other =>
    if other = user then some slot
    else if placement.home other = some slot then none
    else placement.home other
  agree := by
    intro place other
    have agree := placement.agree place other
    by_cases sameUser : other = user
    · subst sameUser
      by_cases sameSlot : place = slot
      · simp [sameSlot]
      · have different : slot ≠ place := fun equality => sameSlot equality.symm
        by_cases occupied : placement.occupant place = some other
        · simp [sameSlot, different, occupied]
        · simp [sameSlot, different, occupied]
    · by_cases sameSlot : place = slot
      · subst sameSlot
        have different : user ≠ other := fun equality => sameUser equality.symm
        by_cases resides : placement.home other = some place
        · simp [sameUser, different, resides]
        · simp [sameUser, different, resides]
      · by_cases resides : placement.home other = some slot
        · have elsewhere : placement.occupant place ≠ some other := by
            intro occupied
            rw [agree.mpr occupied] at resides
            exact sameSlot (Option.some.inj resides)
          by_cases occupied : placement.occupant place = some user
          · simp [sameUser, sameSlot, resides, occupied]
          · simp [sameUser, sameSlot, resides, occupied, elsewhere]
        · by_cases occupied : placement.occupant place = some user
          · have elsewhere : placement.home other ≠ some place := by
              intro home
              rw [agree.mp home] at occupied
              exact sameUser (Option.some.inj occupied)
            simp [sameUser, sameSlot, resides, occupied, elsewhere]
          · simpa [sameUser, sameSlot, resides, occupied] using agree

@[simp] theorem home_assign_same (placement : Placement χ κ) (slot : χ)
    (user : κ) : (placement.assign slot user).home user = some slot := by
  simp [assign]

theorem home_assign_of_ne (placement : Placement χ κ) {slot : χ}
    {user other : κ} (different : other ≠ user)
    (elsewhere : placement.home other ≠ some slot) :
    (placement.assign slot user).home other = placement.home other := by
  simp [assign, different, elsewhere]

end Placement

/-- What is done to a slot. -/
structure Device (σ χ β ι ω : Type*) where
  spill : χ → β → σ → Option (β × σ)
  fill : χ → β → σ → Option σ
  call : χ → ι → σ → Option (σ × ω)

/-- The device with inputs under other names. -/
def Device.comap {ι' : Type*} (device : Device σ χ β ι ω) (name : ι' → ι) :
    Device σ χ β ι' ω :=
  { device with call := fun slot input => device.call slot (name input) }

structure State (σ χ κ β : Type*) where
  device : σ
  placement : Placement χ κ
  images : κ → β

/-- An input of a user, and the slot to take if the user resides in none. -/
structure Turn (χ κ ι : Type*) where
  user : κ
  slot : χ
  input : ι

def Turn.tagged (turn : Turn χ κ ι) : κ × ι := (turn.user, turn.input)

def Turn.map {ι' : Type*} (name : ι' → ι) (turn : Turn χ κ ι') : Turn χ κ ι :=
  { user := turn.user
    slot := turn.slot
    input := name turn.input }

section Step

variable [DecidableEq χ] [DecidableEq κ] (device : Device σ χ β ι ω)

def vacate (slot : χ) (state : State σ χ κ β) : Option (State σ χ κ β) :=
  match state.placement.occupant slot with
  | none => some state
  | some occupant =>
      (device.spill slot (state.images occupant) state.device).map fun saved =>
        { device := saved.2
          placement := state.placement.vacate slot
          images := Function.update state.images occupant saved.1 }

def settle (slot : χ) (user : κ) (state : State σ χ κ β) :
    Option (State σ χ κ β) :=
  (device.fill slot (state.images user) state.device).map fun next =>
    { state with
      device := next
      placement := state.placement.assign slot user }

/-- The slot of the user, which `slot` becomes if there is none. -/
def bring (user : κ) (slot : χ) (state : State σ χ κ β) :
    Option (χ × State σ χ κ β) :=
  match state.placement.home user with
  | some here => some (here, state)
  | none =>
      ((vacate device slot state).bind (settle device slot user)).map
        fun next => (slot, next)

/-- One turn; its answer is tagged with the user. -/
def step (state : State σ χ κ β) (turn : Turn χ κ ι) :
    Option (State σ χ κ β × (κ × ω)) :=
  (bring device turn.user turn.slot state).bind fun brought =>
    (device.call brought.1 turn.input brought.2.device).map fun called =>
      ({ brought.2 with device := called.1 }, (turn.user, called.2))

theorem run_comap {ι' : Type*} (name : ι' → ι) (state : State σ χ κ β)
    (turns : List (Turn χ κ ι')) :
    Transition.run (step (device.comap name)) state turns =
      Transition.run (step device) state (turns.map (Turn.map name)) := by
  rw [Transition.run_map]
  rfl

end Step

/-- What the other slots stand for is kept. -/
def Untouched (backed : σ → χ → β → α → Prop) (slot : χ) (state next : σ) :
    Prop :=
  ∀ {other}, other ≠ slot → ∀ {image machine},
    backed state other image machine → backed next other image machine

/-- `backed state slot image machine`: the slot, with the image it was filled
from, stands for the machine.  `holds image machine`: the image alone does. -/
structure Laws (device : Device σ χ β ι ω) (own : α → ι → Option (α × ω))
    (kept : σ → Prop) (backed : σ → χ → β → α → Prop) (holds : β → α → Prop) :
    Prop where
  spill : ∀ {state slot image machine}, kept state →
    backed state slot image machine →
    ∃ saved next, device.spill slot image state = some (saved, next) ∧
      kept next ∧ holds saved machine ∧ Untouched backed slot state next
  fill : ∀ {state image machine}, kept state → holds image machine → ∀ slot,
    ∃ next, device.fill slot image state = some next ∧ kept next ∧
      backed next slot image machine ∧ Untouched backed slot state next
  call : ∀ {state slot image machine}, kept state →
    backed state slot image machine → ∀ input,
    ∃ next answer moved, device.call slot input state = some (next, answer) ∧
      own machine input = some (moved, answer) ∧ kept next ∧
      backed next slot image moved ∧ Untouched backed slot state next

/-- The machine of each user is in its slot or in its image. -/
structure Represents (kept : σ → Prop) (backed : σ → χ → β → α → Prop)
    (holds : β → α → Prop) (state : State σ χ κ β) (machines : κ → α) :
    Prop where
  kept : kept state.device
  resident : ∀ {user slot}, state.placement.home user = some slot →
    backed state.device slot (state.images user) (machines user)
  absent : ∀ {user}, state.placement.home user = none →
    holds (state.images user) (machines user)

variable [DecidableEq χ] [DecidableEq κ] {device : Device σ χ β ι ω}
  {own : α → ι → Option (α × ω)} {kept : σ → Prop}
  {backed : σ → χ → β → α → Prop} {holds : β → α → Prop}
  {machines : κ → α}

theorem Laws.vacate_represents (laws : Laws device own kept backed holds)
    {state : State σ χ κ β}
    (represents : Represents kept backed holds state machines) (slot : χ) :
    ∃ next, vacate device slot state = some next ∧
      Represents kept backed holds next machines ∧
      (∀ user, next.placement.home user ≠ some slot) ∧
      ∀ user, state.placement.home user = none →
        next.placement.home user = none := by
  cases occupied : state.placement.occupant slot with
  | none =>
      refine ⟨state, by simp only [vacate, occupied], represents, ?_,
        fun _ absent => absent⟩
      intro user resides
      rw [(state.placement.agree slot user).mp resides] at occupied
      cases occupied
  | some occupant =>
      have resides := (state.placement.agree slot occupant).mpr occupied
      obtain ⟨saved, next, spilled, keptNext, held, untouched⟩ :=
        laws.spill represents.kept (represents.resident resides)
      refine ⟨_, by simp only [vacate, occupied, spilled, Option.map_some]; rfl,
        ⟨keptNext, ?_, ?_⟩, state.placement.home_vacate_ne slot, ?_⟩
      · intro user place residesNext
        have elsewhere : state.placement.home user ≠ some slot := by
          intro here
          rw [state.placement.home_vacate_of_eq here] at residesNext
          cases residesNext
        rw [state.placement.home_vacate_of_ne elsewhere] at residesNext
        have other : user ≠ occupant := by
          intro same
          rw [same] at elsewhere
          exact elsewhere resides
        have different : place ≠ slot := by
          intro same
          rw [same] at residesNext
          exact elsewhere residesNext
        simp only [Function.update_of_ne other]
        exact untouched different (represents.resident residesNext)
      · intro user absent
        by_cases same : user = occupant
        · subst same
          simpa only [Function.update_self] using held
        · have elsewhere : state.placement.home user ≠ some slot := by
            intro here
            rw [(state.placement.agree slot user).mp here] at occupied
            exact same (Option.some.inj occupied)
          rw [state.placement.home_vacate_of_ne elsewhere] at absent
          simpa only [Function.update_of_ne same] using
            represents.absent absent
      · intro user absent
        have elsewhere : state.placement.home user ≠ some slot := by
          rw [absent]
          simp
        exact (state.placement.home_vacate_of_ne elsewhere).trans absent

theorem Laws.settle_represents (laws : Laws device own kept backed holds)
    {state : State σ χ κ β}
    (represents : Represents kept backed holds state machines) {slot : χ}
    (free : ∀ user, state.placement.home user ≠ some slot) {user : κ}
    (absent : state.placement.home user = none) :
    ∃ next, settle device slot user state = some next ∧
      Represents kept backed holds next machines ∧
      next.placement.home user = some slot := by
  obtain ⟨next, filled, keptNext, backedNext, untouched⟩ :=
    laws.fill represents.kept (represents.absent absent) slot
  refine ⟨_, by simp only [settle, filled, Option.map_some]; rfl,
    ⟨keptNext, ?_, ?_⟩, state.placement.home_assign_same slot user⟩
  · intro other place resides
    by_cases same : other = user
    · subst same
      rw [state.placement.home_assign_same] at resides
      cases resides
      exact backedNext
    · rw [state.placement.home_assign_of_ne same (free other)] at resides
      have different : place ≠ slot := by
        intro equality
        rw [equality] at resides
        exact free other resides
      exact untouched different (represents.resident resides)
  · intro other absentNext
    by_cases same : other = user
    · subst same
      rw [state.placement.home_assign_same] at absentNext
      cases absentNext
    · rw [state.placement.home_assign_of_ne same (free other)] at absentNext
      exact represents.absent absentNext

theorem Laws.bring_represents (laws : Laws device own kept backed holds)
    {state : State σ χ κ β}
    (represents : Represents kept backed holds state machines) (user : κ)
    (slot : χ) :
    ∃ here next, bring device user slot state = some (here, next) ∧
      Represents kept backed holds next machines ∧
      next.placement.home user = some here := by
  cases resides : state.placement.home user with
  | some here =>
      exact ⟨here, state, by simp only [bring, resides], represents, resides⟩
  | none =>
      obtain ⟨vacated, left, representsVacated, free, absent⟩ :=
        laws.vacate_represents represents slot
      obtain ⟨next, settled, representsNext, home⟩ :=
        laws.settle_represents representsVacated free (absent user resides)
      refine ⟨slot, next, ?_, representsNext, home⟩
      simp only [bring, resides, left, Option.bind_some, settled,
        Option.map_some]

/-- One turn moves the machine of its user as an input does. -/
theorem Laws.step_represents (laws : Laws device own kept backed holds)
    {state : State σ χ κ β}
    (represents : Represents kept backed holds state machines)
    (turn : Turn χ κ ι) :
    ∃ next answer moved,
      step device state turn = some (next, (turn.user, answer)) ∧
      own (machines turn.user) turn.input = some (moved, answer) ∧
      Represents kept backed holds next
        (Function.update machines turn.user moved) := by
  obtain ⟨here, brought, came, representsBrought, home⟩ :=
    laws.bring_represents represents turn.user turn.slot
  obtain ⟨next, answer, moved, called, ranAlone, keptNext, backedNext,
    untouched⟩ := laws.call representsBrought.kept
      (representsBrought.resident home) turn.input
  refine ⟨{ brought with device := next }, answer, moved, ?_, ranAlone,
    keptNext, ?_, ?_⟩
  · simp only [step, came, Option.bind_some, called, Option.map_some]
  · intro user place resides
    by_cases same : user = turn.user
    · subst same
      rw [home] at resides
      cases resides
      simpa only [Function.update_self] using backedNext
    · have different : place ≠ here := by
        intro equality
        subst equality
        have one := (brought.placement.agree place user).mp resides
        rw [(brought.placement.agree place turn.user).mp home] at one
        exact same (Option.some.inj one).symm
      simpa only [Function.update_of_ne same] using
        untouched different (representsBrought.resident resides)
  · intro user absent
    have other : user ≠ turn.user := by
      intro same
      rw [same, home] at absent
      cases absent
    simpa only [Function.update_of_ne other] using
      representsBrought.absent absent

/-- Any run of turns completes; each user gets the answers of a run of its own
machine on its own inputs, and is left with the machine of that run. -/
theorem Laws.run_represents (laws : Laws device own kept backed holds)
    (turns : List (Turn χ κ ι)) {state : State σ χ κ β}
    (represents : Represents kept backed holds state machines) :
    ∃ final answers moved,
      Transition.run (step device) state turns = some (final, answers) ∧
      Represents kept backed holds final moved ∧
      ∀ user, Transition.run own (machines user)
        (Product.only user (turns.map Turn.tagged)) =
          some (moved user, Product.only user answers) := by
  induction turns generalizing state machines with
  | nil => exact ⟨state, [], machines, rfl, represents, fun _ => rfl⟩
  | cons turn turns induction =>
      obtain ⟨next, answer, advanced, stepped, ranAlone, representsNext⟩ :=
        laws.step_represents represents turn
      obtain ⟨final, answers, moved, ran, representsFinal, alone⟩ :=
        induction representsNext
      refine ⟨final, (turn.user, answer) :: answers, moved, ?_,
        representsFinal, ?_⟩
      · simp only [Transition.run, stepped, Option.bind_some, ran,
          Option.map_some]
      · intro user
        have rest := alone user
        by_cases same : turn.user = user
        · subst same
          rw [Function.update_self] at rest
          rw [List.map_cons, Turn.tagged, Product.only_cons_same,
            Product.only_cons_same]
          simp only [Transition.run, ranAlone, Option.bind_some, rest,
            Option.map_some]
        · rw [Function.update_of_ne (fun equality => same equality.symm)] at rest
          rw [List.map_cons, Turn.tagged, Product.only_cons_other same,
            Product.only_cons_other same, rest]

end Multiplex
