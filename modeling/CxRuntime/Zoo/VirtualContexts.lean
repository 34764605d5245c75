import CxRuntime.Lib.Multiplex
import CxRuntime.Zoo.IndependentVectors
import CxRuntime.Zoo.SaveRestore

/-!
# Virtual contexts

Many logical contexts can share the hardware contexts of a CXU by a switch in
software: on first use of a logical context that is not in the hardware, the
occupant of a hardware context is saved through the state port, and the logical
context restored into it with the words and the status word that were saved.
Is the port enough for that?  The port and the custom functions see a context
only through its status word and its words, and treat all contexts alike, so
each logical context behaves as one of a CXU of its own.
-/

namespace CxRuntime

namespace Cxu

variable (cxu : Cxu)

structure Selectors where
  sel : cxu.Context → CxSelidx
  located : ∀ context, cxu.contextOf (sel context) = some context

abbrev AdmissibleCall := { cfCall : CfCall // cxu.Admissible cfCall }

/-- A saved context: its status word and its words. -/
abbrev Image := Word × List Word

/-- Two contexts, of two states, look the same. -/
structure Alike (left : cxu.State) (leftContext : cxu.Context)
    (right : cxu.State) (rightContext : cxu.Context) : Prop where
  status : left.cxuStctxStatus leftContext = right.cxuStctxStatus rightContext
  words : ∀ index, index < cxu.stateSize.toNat →
    cxu.word left.data leftContext index =
      cxu.word right.data rightContext index

/-- A call acts on alike contexts in the same way and leaves all others. -/
structure ActsLocally : Prop where
  alike : ∀ {leftSel leftContext rightSel rightContext},
    cxu.contextOf leftSel = some leftContext →
    cxu.contextOf rightSel = some rightContext →
    ∀ {left right}, cxu.Alike left leftContext right rightContext →
    ∀ {cfCall}, cxu.Admissible cfCall →
    ∃ returned nextLeft nextRight,
      cxu.call leftSel cfCall left = some (returned, nextLeft) ∧
      cxu.call rightSel cfCall right = some (returned, nextRight) ∧
      cxu.Alike nextLeft leftContext nextRight rightContext
  others : ∀ {sysSel context}, cxu.contextOf sysSel = some context →
    ∀ {cfCall}, cxu.Admissible cfCall → ∀ {state returned next},
    cxu.call sysSel cfCall state = some (returned, next) →
    ∀ other, other ≠ context → cxu.SameContext other next state

/-- The image that a save of a context returns. -/
def imageOf (state : cxu.State) (context : cxu.Context) : Image :=
  ((state.cxuStctxStatus context).idx,
    (List.range cxu.stateSize.toNat).map (cxu.word state.data context))

/-- Spill and fill through the state port, the status word as it was saved. -/
def virtualDevice (selectors : cxu.Selectors) :
    Multiplex.Device cxu.State cxu.Context Image cxu.AdmissibleCall
      Returned where
  spill slot _ state := (cxu.port (selectors.sel slot)).save state
  fill slot image state := (cxu.port (selectors.sel slot)).restore image state
  call slot cfCall state :=
    (cxu.call (selectors.sel slot) cfCall.1 state).map Prod.swap

def dedicatedCall (selectors : cxu.Selectors) (here : cxu.Context)
    (state : cxu.State) (cfCall : cxu.AdmissibleCall) :
    Option (cxu.State × Returned) :=
  (cxu.call (selectors.sel here) cfCall.1 state).map Prod.swap

def Backs (here : cxu.Context) (state : cxu.State) (slot : cxu.Context)
    (_image : Image) (machine : cxu.State) : Prop :=
  machine.AllSettled cxu.stateSize ∧ cxu.Alike state slot machine here

def Holds (here : cxu.Context) (image : Image) (machine : cxu.State) : Prop :=
  machine.AllSettled cxu.stateSize ∧ image = cxu.imageOf machine here

variable {cxu}

theorem Alike.trans_same {left next : cxu.State} {leftContext : cxu.Context}
    {right : cxu.State} {rightContext : cxu.Context}
    (alike : cxu.Alike left leftContext right rightContext)
    (same : cxu.SameContext leftContext next left) :
    cxu.Alike next leftContext right rightContext where
  status := same.1.trans alike.status
  words index below := (same.2 index below).trans (alike.words index below)

theorem Alike.imageOf_eq {left : cxu.State} {leftContext : cxu.Context}
    {right : cxu.State} {rightContext : cxu.Context}
    (alike : cxu.Alike left leftContext right rightContext) :
    cxu.imageOf left leftContext = cxu.imageOf right rightContext := by
  have words : (List.range cxu.stateSize.toNat).map
      (cxu.word left.data leftContext) =
        (List.range cxu.stateSize.toNat).map
          (cxu.word right.data rightContext) := by
    apply List.map_congr_left
    intro index member
    exact alike.words index (List.mem_range.mp member)
  simp only [imageOf, alike.status, words]

private theorem restore_imageOf (access : cxu.WordAccess) {sysSel : CxSelidx}
    {slot : cxu.Context} (located : cxu.contextOf sysSel = some slot)
    {state machine : cxu.State} {here : cxu.Context}
    (settled : state.AllSettled cxu.stateSize)
    (machineSettled : machine.AllSettled cxu.stateSize) :
    ∃ next,
      (cxu.port sysSel).restore (cxu.imageOf machine here) state = some next ∧
      cxu.Alike next slot machine here ∧
      ∀ other, other ≠ slot → cxu.SameContext other next state := by
  have complete : (cxu.imageOf machine here).2.length =
      cxu.stateSize.toNat := by
    simp [imageOf]
  obtain ⟨next, restored, statusEq, wordsEq, othersKept⟩ :=
    (port_laws access located).restore_eq
      (restingWord_iff.mpr (machineSettled here)) complete
      (restingWord_iff.mpr (settled slot))
  refine ⟨next, restored, ⟨CxStctxs.idx_injective statusEq, ?_⟩, ?_⟩
  · intro index below
    have inRange := wordsEq index below
    rw [imageOf, List.getElem?_map, List.getElem?_range below] at inRange
    exact (Option.some.inj inRange).symm
  · intro other different
    exact ⟨CxStctxs.idx_injective (othersKept other different).1,
      (othersKept other different).2⟩

private theorem allSettled_of_alike {state next machine : cxu.State}
    {slot here : cxu.Context} (settled : state.AllSettled cxu.stateSize)
    (machineSettled : machine.AllSettled cxu.stateSize)
    (alike : cxu.Alike next slot machine here)
    (others : ∀ other, other ≠ slot → cxu.SameContext other next state) :
    next.AllSettled cxu.stateSize := by
  intro other
  by_cases same : other = slot
  · subst same
    rw [alike.status]
    exact machineSettled here
  · rw [(others other same).1]
    exact settled other

private theorem untouched_of_others {here slot : cxu.Context}
    {state next : cxu.State}
    (others : ∀ other, other ≠ slot → cxu.SameContext other next state) :
    Multiplex.Untouched (cxu.Backs here) slot state next := by
  intro other different _ machine backed
  exact ⟨backed.1, backed.2.trans_same (others other different)⟩

/-- Spill and fill through the port keep what the logical contexts are. -/
theorem virtual_laws (access : cxu.WordAccess) (acts : cxu.ActsLocally)
    (selectors : cxu.Selectors) (here : cxu.Context) :
    Multiplex.Laws (cxu.virtualDevice selectors)
      (cxu.dedicatedCall selectors here)
      (fun state => state.AllSettled cxu.stateSize) (cxu.Backs here)
      (cxu.Holds here) where
  spill := by
    intro state slot _ machine settled backed
    have saved := (port_laws access (selectors.located slot)).save_eq
      (restingWord_iff.mpr (settled slot))
    refine ⟨cxu.imageOf state slot, state, saved, settled,
      ⟨backed.1, backed.2.imageOf_eq⟩, ?_⟩
    exact untouched_of_others fun _ _ => ⟨rfl, fun _ _ => rfl⟩
  fill := by
    rintro state _ machine settled ⟨machineSettled, rfl⟩ slot
    obtain ⟨next, restored, alike, others⟩ :=
      restore_imageOf access (selectors.located slot) settled machineSettled
    exact ⟨next, restored,
      allSettled_of_alike settled machineSettled alike others,
      ⟨machineSettled, alike⟩, untouched_of_others others⟩
  call := by
    intro state slot _ machine settled backed cfCall
    obtain ⟨returned, next, moved, called, calledAlone, alike⟩ :=
      acts.alike (selectors.located slot) (selectors.located here) backed.2
        cfCall.2
    refine ⟨next, returned, moved, ?_, ?_, call_settled settled called,
      ⟨call_settled backed.1 calledAlone, alike⟩, ?_⟩
    · simp only [virtualDevice, called, Option.map_some, Prod.swap_prod_mk]
    · simp only [dedicatedCall, calledAlone, Option.map_some,
        Prod.swap_prod_mk]
    · exact untouched_of_others
        (acts.others (selectors.located slot) cfCall.2 called)

/-- Each logical context, in its slot or in its image, is the context `here` of
its machine, and the status words are settled. -/
def Virtual {κ : Type} (here : cxu.Context)
    (state : Multiplex.State cxu.State cxu.Context κ Image)
    (machines : κ → cxu.State) : Prop :=
  Multiplex.Represents (fun state => state.AllSettled cxu.stateSize)
    (cxu.Backs here) (cxu.Holds here) state machines

/-- No logical context is in the hardware, and each has the image of a context
of a reachable CXU. -/
theorem virtual_of_images {κ : Type} (here : cxu.Context)
    {state : cxu.State} (reachable : cxu.Reachable state)
    {machines : κ → cxu.State}
    (machinesReachable : ∀ user, cxu.Reachable (machines user)) :
    Virtual here
      { device := state
        placement := .empty
        images := fun user => cxu.imageOf (machines user) here } machines where
  kept := reachable_settled reachable
  resident resides := by cases resides
  absent _ := ⟨reachable_settled (machinesReachable _), rfl⟩

/-- Whatever hardware contexts the turns take, each logical context gets the
answers that the context `here` of a CXU of its own gives to its calls, and ends
as that context. -/
def Virtualises (cxu : Cxu) : Prop :=
  ∀ (selectors : cxu.Selectors) (here : cxu.Context) {κ : Type}
    [DecidableEq κ]
    {state : Multiplex.State cxu.State cxu.Context κ Image}
    {machines : κ → cxu.State}, Virtual here state machines →
  ∀ turns : List (Multiplex.Turn cxu.Context κ cxu.AdmissibleCall),
    ∃ final answers moved,
      Transition.run (Multiplex.step (cxu.virtualDevice selectors)) state
          turns = some (final, answers) ∧
        Virtual here final moved ∧
        ∀ user, cxu.runOn (selectors.sel here) (machines user)
          ((Product.only user (turns.map Multiplex.Turn.tagged)).map
            Subtype.val) = some (moved user, Product.only user answers)

private theorem virtualises (access : cxu.WordAccess) (acts : cxu.ActsLocally) :
    cxu.Virtualises := by
  intro selectors here κ _ state machines isVirtual turns
  obtain ⟨final, answers, moved, ran, finalVirtual, alone⟩ :=
    (virtual_laws access acts selectors here).run_represents turns isVirtual
  refine ⟨final, answers, moved, ran, finalVirtual, ?_⟩
  intro user
  rw [runOn, Transition.run_map]
  exact alone user

end Cxu

/-! ## The three units -/

/-- Contexts that a machine `soloFunc` describes act locally. -/
theorem Cxu.actsLocally_of_solo {cxu : Cxu} {α : Type}
    {soloOf : cxu.State → cxu.Context → α}
    {soloStep : α → CfCall → α × Returned}
    (alike_iff : ∀ {left leftContext right rightContext},
      cxu.Alike left leftContext right rightContext ↔
        soloOf left leftContext = soloOf right rightContext)
    (simulates : ∀ {sysSel context}, cxu.contextOf sysSel = some context →
      ∀ {cfCall}, cxu.Admissible cfCall → ∀ state, ∃ next,
        cxu.call sysSel cfCall state =
            some ((soloStep (soloOf state context) cfCall).2, next) ∧
          soloOf next = Function.update (soloOf state) context
            (soloStep (soloOf state context) cfCall).1) :
    cxu.ActsLocally where
  alike := by
    intro leftSel leftContext rightSel rightContext leftLocated rightLocated
      left right alike cfCall admissible
    obtain ⟨nextLeft, calledLeft, movedLeft⟩ :=
      simulates leftLocated admissible left
    obtain ⟨nextRight, calledRight, movedRight⟩ :=
      simulates rightLocated admissible right
    have same := alike_iff.mp alike
    rw [same] at calledLeft movedLeft
    refine ⟨_, nextLeft, nextRight, calledLeft, calledRight,
      alike_iff.mpr ?_⟩
    rw [movedLeft, movedRight, Function.update_self, Function.update_self]
  others := by
    intro sysSel context located cfCall admissible state returned next called
      other different
    obtain ⟨moved, calledSolo, movedEq⟩ := simulates located admissible state
    cases called.symm.trans calledSolo
    have kept : soloOf next other = soloOf state other := by
      rw [movedEq, Function.update_of_ne different]
    have alike := alike_iff.mpr kept
    exact ⟨alike.status, alike.words⟩

theorem mulacc_actsLocally : mulacc.ActsLocally := by
  apply @Cxu.actsLocally_of_solo mulacc _ Accumulator.soloOf
    (fun solo call => Mulacc.soloFunc call.cfId call.a call.b solo)
  · intro left leftContext right rightContext
    constructor
    · intro alike
      simp only [Accumulator.soloOf, SoloAcc.mk.injEq]
      exact ⟨alike.words 0 (by decide), alike.status⟩
    · intro same
      simp only [Accumulator.soloOf, SoloAcc.mk.injEq] at same
      exact ⟨same.2, fun _ _ => same.1⟩
  · intro sysSel context located cfCall admissible state
    exact mulacc_simulates state
      ⟨sysSel, context, located, cfCall, admissible.1⟩

theorem nnAcc_actsLocally : nnAcc.ActsLocally := by
  apply @Cxu.actsLocally_of_solo nnAcc _ Accumulator.soloOf
    (fun solo call => NnAcc.soloFunc call.cfId call.a call.b solo)
  · intro left leftContext right rightContext
    constructor
    · intro alike
      simp only [Accumulator.soloOf, SoloAcc.mk.injEq]
      exact ⟨alike.words 0 (by decide), alike.status⟩
    · intro same
      simp only [Accumulator.soloOf, SoloAcc.mk.injEq] at same
      exact ⟨same.2, fun _ _ => same.1⟩
  · intro sysSel context located cfCall admissible state
    exact nnAcc_simulates state
      ⟨sysSel, context, located, cfCall, admissible.1⟩

theorem vector_simulates {sysSel : CxSelidx} {context : vector.Context}
    (located : vector.contextOf sysSel = some context) {cfCall : CfCall}
    (admissible : vector.Admissible cfCall) (state : vector.State) :
    ∃ next,
      vector.call sysSel cfCall state =
          some ((Vector.soloFunc cfCall.cfId cfCall.a cfCall.b
            (Vector.soloOf state context)).2, next) ∧
        Vector.soloOf next = Function.update (Vector.soloOf state) context
          (Vector.soloFunc cfCall.cfId cfCall.a cfCall.b
            (Vector.soloOf state context)).1 := by
  obtain ⟨func, entry, acts⟩ :=
    Vector.cxFuncVector_actsAs admissible.1 admissible.2
  obtain ⟨next, ran, moved⟩ := acts located state
  exact ⟨next, Option.bind_eq_some_iff.mpr ⟨func, entry, ran⟩, moved⟩

theorem vector_words_iff {left right : vector.State}
    {leftContext rightContext : vector.Context} :
    (∀ index, index < vector.stateSize.toNat →
      vector.word left.data leftContext index =
        vector.word right.data rightContext index) ↔
      (Vector.soloOf left leftContext).regs =
        (Vector.soloOf right rightContext).regs := by
  constructor
  · intro alike
    funext reg lane
    calc
      Vector.registers left.data leftContext reg lane = _ :=
        Vector.registers_eq_wordOf left.data leftContext reg lane
      _ = _ := alike _ (Vector.laneIndex_lt reg lane)
      _ = Vector.registers right.data rightContext reg lane :=
        (Vector.registers_eq_wordOf right.data rightContext reg lane).symm
  · intro same index below
    calc
      Vector.wordOf left.data leftContext index = _ :=
        Vector.wordOf_eq_registers left.data leftContext below
      _ = _ := congrFun (congrFun same _) _
      _ = Vector.wordOf right.data rightContext index :=
        (Vector.wordOf_eq_registers right.data rightContext below).symm

private theorem vector_alike_iff {left right : vector.State}
    {leftContext rightContext : vector.Context} :
    vector.Alike left leftContext right rightContext ↔
      Vector.soloOf left leftContext = Vector.soloOf right rightContext := by
  constructor
  · intro alike
    have regs := vector_words_iff.mp alike.words
    have status := alike.status
    simp only [Vector.soloOf, Vector.SoloVec.mk.injEq] at regs ⊢
    exact ⟨regs, status⟩
  · intro same
    exact ⟨congrArg Vector.SoloVec.status same,
      vector_words_iff.mpr (congrArg Vector.SoloVec.regs same)⟩

theorem vector_actsLocally : vector.ActsLocally :=
  @Cxu.actsLocally_of_solo vector _ Vector.soloOf
    (fun solo call => Vector.soloFunc call.cfId call.a call.b solo)
    vector_alike_iff vector_simulates

/-- The hardware contexts of each stateful CXU can be shared by any number of
logical contexts, unnoticed by them. -/
theorem virtual_contexts_unnoticed :
    ∀ cxu ∈ [mulacc, nnAcc, vector], cxu.Virtualises := by
  intro cxu member
  simp only [List.mem_cons, List.not_mem_nil, or_false] at member
  rcases member with rfl | rfl | rfl
  · exact Cxu.virtualises mulacc_wordAccess mulacc_actsLocally
  · exact Cxu.virtualises nnAcc_wordAccess nnAcc_actsLocally
  · exact Cxu.virtualises vector_wordAccess vector_actsLocally

/-- The selector of a context, as `gen_cx_sel` packs it. -/
def contextSel (cxId stateId : Nat) : CxSelidx :=
  { cxId := BitVec.ofNat 8 cxId
    reserved1 := 0
    stateId := BitVec.ofNat 8 stateId
    reserved0 := 0
    version := 1
    cxe := 0 }

def Mulacc.selectors : mulacc.Selectors where
  sel context := contextSel 2 context.2
  located := by
    intro context
    obtain ⟨instNum, stateId⟩ := context
    have instNumEq : Mulacc.cxuIdToInstanceNum 2 = some instNum :=
      congrArg some (Subsingleton.elim _ _)
    have stateLt : stateId.val < 2 := stateId.isLt
    apply locate_eq instNumEq
    simp only [contextSel, BitVec.toNat_ofNat]
    omega

def NnAcc.selectors : nnAcc.Selectors where
  sel context := contextSel 7 context.2
  located := by
    intro context
    obtain ⟨instNum, stateId⟩ := context
    have instNumEq : NnAcc.cxuIdToInstanceNum 7 = some instNum :=
      congrArg some (Subsingleton.elim _ _)
    have stateLt : stateId.val < 2 := stateId.isLt
    apply locate_eq instNumEq
    simp only [contextSel, BitVec.toNat_ofNat]
    omega

/-- Two logical contexts take turns on one hardware context. -/
theorem virtual_contexts_unnoticed_shared :
    let mac (user : Bool) (a b : Word) :
        Multiplex.Turn mulacc.Context Bool mulacc.AdmissibleCall :=
      ⟨user, Mulacc.firstContext, ⟨⟨0, a, b⟩, Nat.zero_lt_succ _, trivial⟩⟩
    ∃ final answers,
      Transition.run (Multiplex.step (mulacc.virtualDevice Mulacc.selectors))
        { device := mulacc.initial
          placement := .empty
          images := fun _ => mulacc.imageOf mulacc.initial Mulacc.firstContext }
        [mac false 5 5, mac true 5 3, mac false 2 2, mac true 3 3] =
          some (final, answers) ∧
      Product.only false answers = [some 25, some 29] ∧
      Product.only true answers = [some 15, some 24] := by
  intro mac
  have start := @Cxu.virtual_of_images mulacc Bool Mulacc.firstContext
    mulacc.initial .refl (fun _ => mulacc.initial) fun _ => .refl
  obtain ⟨final, answers, moved, ran, _, alone⟩ :=
    virtual_contexts_unnoticed mulacc (by simp) Mulacc.selectors
      Mulacc.firstContext start
      [mac false 5 5, mac true 5 3, mac false 2 2, mac true 3 3]
  refine ⟨final, answers, ran, ?_, ?_⟩
  · have answered := congrArg (Option.map Prod.snd) (alone false)
    exact (Option.some.inj answered).symm
  · have answered := congrArg (Option.map Prod.snd) (alone true)
    exact (Option.some.inj answered).symm

end CxRuntime
