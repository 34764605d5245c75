import CxRuntime.Zoo.DirtyTracking
import CxRuntime.Zoo.VirtualContexts

/-!
# Spilling only dirty contexts

A restored context is marked `CX_CLEAN`, and a context that still shows
`CX_CLEAN` is not saved again when it has to leave the hardware.  This is sound
for a function that marks the context whenever it changes a word, and only for
such functions: the accumulators lose the effect of CF 1, 3 and 4.
-/

namespace CxRuntime

namespace Cxu

variable (cxu : Cxu)

/-- The image with the status that a restored context gets. -/
def cleanImage (image : Image) : Image :=
  (CxStctxs.idx { CxStctxs.ofIdx image.1 with dc := CxCs.clean.dc }, image.2)

/-- Spill through the state port unless the context shows `CX_CLEAN`. -/
def lazySpill (sysSel : CxSelidx) (image : Image) (state : cxu.State) :
    Option (Image × cxu.State) :=
  ((cxu.port sysSel).readStatus state).bind fun shown =>
    if getCxDataClean .uint shown.1 = CxCs.clean.word then
      some (image, shown.2)
    else (cxu.port sysSel).save shown.2

/-- What programs do with a context: user functions, of which only `allowed`
ones, and `CX_READ_STATE`. -/
def ProgramCall (allowed : Nat → Prop) (cfCall : CfCall) : Prop :=
  (cxu.UserCall cfCall ∧ allowed cfCall.cfId) ∨
    (cfCall.cfId = 1021 ∧ cxu.admits 1021 cfCall.a cfCall.b)

abbrev AllowedCall (allowed : Nat → Prop) :=
  { cfCall : CfCall // cxu.ProgramCall allowed cfCall }

def lazyDevice (selectors : cxu.Selectors) :
    Multiplex.Device cxu.State cxu.Context Image CfCall Returned where
  spill slot image state := cxu.lazySpill (selectors.sel slot) image state
  fill slot image state :=
    (cxu.port (selectors.sel slot)).restore (cleanImage image) state
  call slot cfCall state :=
    (cxu.call (selectors.sel slot) cfCall state).map Prod.swap

/-- The device for program calls with allowed CF ids. -/
def programDevice (selectors : cxu.Selectors) (allowed : Nat → Prop) :
    Multiplex.Device cxu.State cxu.Context Image (cxu.AllowedCall allowed)
      Returned :=
  (cxu.lazyDevice selectors).comap Subtype.val

/-- A program call on the context `here` of a CXU of its own. -/
def ownCall (selectors : cxu.Selectors) (here : cxu.Context)
    (allowed : Nat → Prop) (state : cxu.State)
    (cfCall : cxu.AllowedCall allowed) : Option (cxu.State × Returned) :=
  (cxu.call (selectors.sel here) cfCall.1 state).map Prod.swap

/-- Two contexts have the same words. -/
def WordsAlike (left : cxu.State) (leftContext : cxu.Context)
    (right : cxu.State) (rightContext : cxu.Context) : Prop :=
  ∀ index, index < cxu.stateSize.toNat →
    cxu.word left.data leftContext index =
      cxu.word right.data rightContext index

/-- Program calls see and move words only, and mark the context when they change
them. -/
structure MarksChanges (allowed : Nat → Prop) : Prop where
  admissible : ∀ {cfCall}, cxu.ProgramCall allowed cfCall →
    cxu.Admissible cfCall
  alike : ∀ {leftSel leftContext rightSel rightContext},
    cxu.contextOf leftSel = some leftContext →
    cxu.contextOf rightSel = some rightContext →
    ∀ {left right}, cxu.WordsAlike left leftContext right rightContext →
    ∀ {cfCall}, cxu.ProgramCall allowed cfCall →
    ∃ returned nextLeft nextRight,
      cxu.call leftSel cfCall left = some (returned, nextLeft) ∧
      cxu.call rightSel cfCall right = some (returned, nextRight) ∧
      cxu.WordsAlike nextLeft leftContext nextRight rightContext ∧
      (dirtyBit (nextLeft.cxuStctxStatus leftContext) = false →
        dirtyBit (left.cxuStctxStatus leftContext) = false ∧
          cxu.WordsAlike nextLeft leftContext left leftContext)

/-- The words of an image are those of a context. -/
def ImageWords (image : Image) (machine : cxu.State) (here : cxu.Context) :
    Prop :=
  image.2 = (cxu.imageOf machine here).2

/-- The image can be restored and has the words of the context `here`. -/
def LazyHolds (here : cxu.Context) (image : Image) (machine : cxu.State) :
    Prop :=
  cxu.RestingWord image.1 ∧ cxu.ImageWords image machine here

/-- The hardware context has the words of the context `here`, and so has the
image while the hardware context shows `CX_CLEAN`. -/
structure LazyBacks (here : cxu.Context) (state : cxu.State)
    (slot : cxu.Context) (image : Image) (machine : cxu.State) : Prop where
  resting : cxu.RestingWord image.1
  words : cxu.WordsAlike state slot machine here
  saved : dirtyBit (state.cxuStctxStatus slot) = false →
    cxu.ImageWords image machine here

variable {cxu}

theorem imageWords_iff {state machine : cxu.State} {slot here : cxu.Context}
    {status : Word} :
    cxu.ImageWords (status, (cxu.imageOf state slot).2) machine here ↔
      cxu.WordsAlike state slot machine here := by
  simp only [ImageWords, imageOf]
  constructor
  · intro same index below
    have inRange := congrArg (fun words => words[index]?) same
    simp only [List.getElem?_map, List.getElem?_range below,
      Option.map_some] at inRange
    exact Option.some.inj inRange
  · intro alike
    apply List.map_congr_left
    intro index member
    exact alike index (List.mem_range.mp member)

private theorem RestingWord.cleanImage {image : Image}
    (resting : cxu.RestingWord image.1) :
    (Cxu.cleanImage image).1 =
      (statusWord cxu.stateSize .clean).idx := by
  obtain ⟨status, settled, statusEq⟩ := resting
  simp only [Cxu.cleanImage, statusEq, CxStctxs.ofIdx_idx]
  rw [settled.setDc .clean]

theorem lazySpill_eq {sysSel : CxSelidx} {slot : cxu.Context}
    (access : cxu.WordAccess) (located : cxu.contextOf sysSel = some slot)
    {state : cxu.State} (settled : state.AllSettled cxu.stateSize)
    (image : Image) :
    cxu.lazySpill sysSel image state =
      if dirtyBit (state.cxuStctxStatus slot) = false then some (image, state)
      else some (cxu.imageOf state slot, state) := by
  have shown := (port_laws access located).readStatus_eq state
  have saved := (port_laws access located).save_eq
    (restingWord_iff.mpr (settled slot))
  obtain ⟨cs, csEq⟩ := CxCs.dc_surjective (state.cxuStctxStatus slot).dc
  have clean : getCxDataClean .uint (state.cxuStctxStatus slot).idx =
      CxCs.clean.word ↔ dirtyBit (state.cxuStctxStatus slot) = false := by
    rw [getCxDataClean_eq, CxStctxs.ofIdx_idx, ← csEq,
      CxCs.setWidth_dc_eq_word]
    simp only [dirtyBit, ← csEq, decide_eq_false_iff_not, ne_eq, not_not,
      CxCs.dc_injective.eq_iff]
  simp only [lazySpill, shown, Option.bind_some, clean, saved]
  rfl

/-- Restoring a clean image installs its words and shows `CX_CLEAN`. -/
theorem restore_cleanImage (access : cxu.WordAccess) {sysSel : CxSelidx}
    {slot : cxu.Context} (located : cxu.contextOf sysSel = some slot)
    {state machine : cxu.State} {here : cxu.Context} {image : Image}
    (settled : state.AllSettled cxu.stateSize)
    (holds : cxu.LazyHolds here image machine) :
    ∃ next,
      (cxu.port sysSel).restore (cleanImage image) state = some next ∧
      next.AllSettled cxu.stateSize ∧
      cxu.LazyBacks here next slot image machine ∧
      ∀ other, other ≠ slot → cxu.SameContext other next state := by
  obtain ⟨resting, words⟩ := holds
  have cleanSettled : Settled cxu.stateSize (statusWord cxu.stateSize .clean) :=
    settled_statusWord cxu.stateSize (by decide)
  have cleanRests : cxu.RestingWord (cleanImage image).1 := by
    rw [resting.cleanImage]
    exact restingWord_iff.mpr cleanSettled
  have complete : (cleanImage image).2.length = cxu.stateSize.toNat := by
    change image.2.length = _
    rw [words]
    simp [imageOf]
  obtain ⟨next, restored, statusEq, wordsEq, othersKept⟩ :=
    (port_laws access located).restore_eq cleanRests complete
      (restingWord_iff.mpr (settled slot))
  have status : next.cxuStctxStatus slot =
      statusWord cxu.stateSize .clean := by
    apply CxStctxs.idx_injective
    rw [← resting.cleanImage]
    exact statusEq
  have others : ∀ other, other ≠ slot → cxu.SameContext other next state :=
    fun other different =>
      ⟨CxStctxs.idx_injective (othersKept other different).1,
        (othersKept other different).2⟩
  refine ⟨next, restored, ?_, ⟨resting, ?_, fun _ => words⟩, others⟩
  · intro other
    by_cases same : other = slot
    · rw [same, status]
      exact cleanSettled
    · rw [(others other same).1]
      exact settled other
  · intro index below
    have inRange := wordsEq index below
    change image.2[index]? = _ at inRange
    rw [words, imageOf, List.getElem?_map, List.getElem?_range below] at inRange
    exact (Option.some.inj inRange).symm

private theorem lazy_untouched {here slot : cxu.Context}
    {state next : cxu.State}
    (others : ∀ other, other ≠ slot → cxu.SameContext other next state) :
    Multiplex.Untouched (cxu.LazyBacks here) slot state next := by
  intro other different image machine backed
  refine ⟨backed.resting, ?_, ?_⟩
  · intro index below
    exact ((others other different).2 index below).trans
      (backed.words index below)
  · intro clean
    rw [(others other different).1] at clean
    exact backed.saved clean

/-- With functions that mark their changes, spilling only dirty contexts keeps
what the logical contexts are. -/
theorem lazy_laws (access : cxu.WordAccess) (acts : cxu.ActsLocally)
    {allowed : Nat → Prop} (marks : cxu.MarksChanges allowed)
    (selectors : cxu.Selectors) (here : cxu.Context) :
    Multiplex.Laws (cxu.programDevice selectors allowed)
      (cxu.ownCall selectors here allowed)
      (fun state => state.AllSettled cxu.stateSize) (cxu.LazyBacks here)
      (cxu.LazyHolds here) where
  spill := by
    intro state slot image machine settled backed
    have spilled := lazySpill_eq access (selectors.located slot) settled image
    have untouched : Multiplex.Untouched (cxu.LazyBacks here) slot state state :=
      lazy_untouched fun _ _ => ⟨rfl, fun _ _ => rfl⟩
    by_cases clean : dirtyBit (state.cxuStctxStatus slot) = false
    · rw [if_pos clean] at spilled
      exact ⟨image, state, spilled, settled,
        ⟨backed.resting, backed.saved clean⟩, untouched⟩
    · rw [if_neg clean] at spilled
      exact ⟨_, state, spilled, settled,
        ⟨restingWord_iff.mpr (settled slot), imageWords_iff.mpr backed.words⟩,
        untouched⟩
  fill := by
    intro state image machine settled holds slot
    obtain ⟨next, restored, nextSettled, backs, others⟩ :=
      restore_cleanImage access (selectors.located slot) settled holds
    exact ⟨next, restored, nextSettled, backs, lazy_untouched others⟩
  call := by
    intro state slot image machine settled backed cfCall
    obtain ⟨returned, next, moved, called, calledAlone, alike, unmarked⟩ :=
      marks.alike (selectors.located slot) (selectors.located here) backed.words
        cfCall.2
    refine ⟨next, returned, moved, ?_, ?_, call_settled settled called,
      ⟨backed.resting, alike, ?_⟩, ?_⟩
    · simp only [programDevice, Multiplex.Device.comap, lazyDevice, called,
        Option.map_some, Prod.swap_prod_mk]
    · simp only [ownCall, calledAlone, Option.map_some, Prod.swap_prod_mk]
    · intro clean
      obtain ⟨wasClean, kept⟩ := unmarked clean
      have words : cxu.WordsAlike moved here machine here := by
        intro index below
        rw [← alike index below, kept index below]
        exact backed.words index below
      have saved := backed.saved wasClean
      rw [ImageWords] at saved ⊢
      rw [saved]
      exact imageWords_iff.mpr fun index below => (words index below).symm
    · exact lazy_untouched
        (acts.others (selectors.located slot) (marks.admissible cfCall.2) called)

/-- Each logical context has its words in its slot or in its image. -/
def LazyVirtual {κ : Type} (here : cxu.Context)
    (state : Multiplex.State cxu.State cxu.Context κ Image)
    (machines : κ → cxu.State) : Prop :=
  Multiplex.Represents (fun state => state.AllSettled cxu.stateSize)
    (cxu.LazyBacks here) (cxu.LazyHolds here) state machines

/-- Whatever hardware contexts the turns take, spilling only dirty contexts is
unnoticed by program calls with allowed CF ids. -/
def LazilyVirtualises (cxu : Cxu) (allowed : Nat → Prop) : Prop :=
  ∀ (selectors : cxu.Selectors) (here : cxu.Context) {κ : Type}
    [DecidableEq κ]
    {state : Multiplex.State cxu.State cxu.Context κ Image}
    {machines : κ → cxu.State}, LazyVirtual here state machines →
  ∀ turns : List (Multiplex.Turn cxu.Context κ (cxu.AllowedCall allowed)),
    ∃ final answers,
      Transition.run (Multiplex.step (cxu.programDevice selectors allowed))
          state turns = some (final, answers) ∧
        ∀ user, ∃ moved, cxu.runOn (selectors.sel here) (machines user)
          ((Product.only user (turns.map Multiplex.Turn.tagged)).map
            Subtype.val) = some (moved, Product.only user answers)

private theorem lazilyVirtualises (access : cxu.WordAccess)
    (acts : cxu.ActsLocally)
    {allowed : Nat → Prop} (marks : cxu.MarksChanges allowed) :
    cxu.LazilyVirtualises allowed := by
  intro selectors here κ _ state machines isVirtual turns
  obtain ⟨final, answers, moved, ran, _, alone⟩ :=
    (lazy_laws access acts marks selectors here).run_represents turns isVirtual
  refine ⟨final, answers, ran, ?_⟩
  intro user
  refine ⟨moved user, ?_⟩
  rw [runOn, Transition.run_map]
  exact alone user

end Cxu

/-! ## Which functions mark their changes -/

/-- Program calls that a machine `soloStep` describes. -/
theorem Cxu.marksChanges_of_solo {cxu : Cxu} {α ν : Type}
    {allowed : Nat → Prop} {soloOf : cxu.State → cxu.Context → α}
    {soloStep : α → CfCall → α × Returned} {valueOf : α → ν}
    {statusOf : α → CxStctxs}
    (value_iff : ∀ {left leftContext right rightContext},
      cxu.WordsAlike left leftContext right rightContext ↔
        valueOf (soloOf left leftContext) =
          valueOf (soloOf right rightContext))
    (status_eq : ∀ state context,
      statusOf (soloOf state context) = state.cxuStctxStatus context)
    (simulates : ∀ {sysSel context}, cxu.contextOf sysSel = some context →
      ∀ {cfCall}, cxu.Admissible cfCall → ∀ state, ∃ next,
        cxu.call sysSel cfCall state =
            some ((soloStep (soloOf state context) cfCall).2, next) ∧
          soloOf next = Function.update (soloOf state) context
            (soloStep (soloOf state context) cfCall).1)
    (admissible : ∀ {cfCall}, cxu.ProgramCall allowed cfCall →
      cxu.Admissible cfCall)
    (sees : ∀ {cfCall}, cxu.ProgramCall allowed cfCall → ∀ {solo other},
      valueOf solo = valueOf other →
        (soloStep solo cfCall).2 = (soloStep other cfCall).2 ∧
          valueOf (soloStep solo cfCall).1 = valueOf (soloStep other cfCall).1)
    (marks : ∀ {cfCall}, cxu.ProgramCall allowed cfCall → ∀ solo,
      dirtyBit (statusOf (soloStep solo cfCall).1) = false →
        dirtyBit (statusOf solo) = false ∧
          valueOf (soloStep solo cfCall).1 = valueOf solo) :
    cxu.MarksChanges allowed where
  admissible := admissible
  alike := by
    intro leftSel leftContext rightSel rightContext leftLocated rightLocated
      left right alike cfCall program
    obtain ⟨nextLeft, calledLeft, movedLeft⟩ :=
      simulates leftLocated (admissible program) left
    obtain ⟨nextRight, calledRight, movedRight⟩ :=
      simulates rightLocated (admissible program) right
    obtain ⟨sameAnswer, sameValue⟩ := sees program (value_iff.mp alike)
    rw [← sameAnswer] at calledRight
    refine ⟨_, nextLeft, nextRight, calledLeft, calledRight, ?_, ?_⟩
    · apply value_iff.mpr
      rw [movedLeft, movedRight, Function.update_self, Function.update_self]
      exact sameValue
    · intro clean
      rw [← status_eq, movedLeft, Function.update_self] at clean
      obtain ⟨wasClean, kept⟩ := marks program _ clean
      refine ⟨by rwa [← status_eq], ?_⟩
      apply value_iff.mpr
      rw [movedLeft, Function.update_self]
      exact kept

theorem soloOf_wordsAlike_iff {κ : Type} [DecidableEq κ]
    {left right : AccStatics κ} {leftContext rightContext : κ} :
    (∀ index, index < 1 →
      left.data leftContext = right.data rightContext) ↔
      (Accumulator.soloOf left leftContext).acc =
        (Accumulator.soloOf right rightContext).acc := by
  constructor
  · exact fun alike => alike 0 Nat.one_pos
  · exact fun same _ _ => same

namespace SoloAcc

/-- The function sees and moves the accumulator only, and marks a change of it. -/
structure MarksChange (func : SoloFunc) : Prop where
  sees : ∀ a b {solo other}, solo.acc = other.acc →
    (func a b solo).2 = (func a b other).2 ∧
      (func a b solo).1.acc = (func a b other).1.acc
  marks : ∀ a b solo, dirtyBit (func a b solo).1.status = false →
    dirtyBit solo.status = false ∧ (func a b solo).1.acc = solo.acc

theorem accumulate_marksChange : MarksChange accumulate where
  sees _ _ _ _ same := by simp [accumulate, same]
  marks _ _ _ clean := by cases clean

private theorem relu_marksChange : MarksChange relu where
  sees _ _ _ _ same := by simp [relu, same]
  marks _ _ _ clean := by cases clean

private theorem nothing_marksChange : MarksChange nothing where
  sees _ _ _ _ same := ⟨rfl, same⟩
  marks _ _ _ clean := ⟨clean, rfl⟩

theorem readState_marksChange : MarksChange readState where
  sees _ _ _ _ same := by simp [readState, same]
  marks _ _ _ clean := ⟨clean, rfl⟩

end SoloAcc

theorem mulacc_programCall {allowed : Nat → Prop}
    (silent : ¬allowed 1 ∧ ¬allowed 3 ∧ ¬allowed 4) {cfCall : CfCall}
    (program : mulacc.ProgramCall allowed cfCall) :
    cfCall.cfId = 0 ∨ cfCall.cfId = 2 ∨ cfCall.cfId = 1021 := by
  rcases program with ⟨⟨userId, _⟩, isAllowed⟩ | ⟨readState, _⟩
  · change cfCall.cfId < 5 at userId
    have notReset : cfCall.cfId ≠ 1 := by
      intro same
      rw [same] at isAllowed
      exact silent.1 isAllowed
    have notZeroMac : cfCall.cfId ≠ 3 := by
      intro same
      rw [same] at isAllowed
      exact silent.2.1 isAllowed
    have notReadAcc : cfCall.cfId ≠ 4 := by
      intro same
      rw [same] at isAllowed
      exact silent.2.2 isAllowed
    omega
  · exact Or.inr (Or.inr readState)

theorem mulacc_marksChanges {allowed : Nat → Prop}
    (silent : ¬allowed 1 ∧ ¬allowed 3 ∧ ¬allowed 4) :
    mulacc.MarksChanges allowed := by
  have marksChange : ∀ {cfCall}, mulacc.ProgramCall allowed cfCall →
      SoloAcc.MarksChange (Mulacc.soloFunc cfCall.cfId) := by
    intro cfCall program
    rcases mulacc_programCall silent program with same | same | same
    · rw [same]
      exact SoloAcc.accumulate_marksChange
    · rw [same]
      exact SoloAcc.nothing_marksChange
    · rw [same]
      exact SoloAcc.readState_marksChange
  apply @Cxu.marksChanges_of_solo mulacc _ _ allowed Accumulator.soloOf
    (fun solo call => Mulacc.soloFunc call.cfId call.a call.b solo)
    SoloAcc.acc SoloAcc.status soloOf_wordsAlike_iff (fun _ _ => rfl)
  · intro sysSel context located cfCall admissible state
    exact mulacc_simulates state
      ⟨sysSel, context, located, cfCall, admissible.1⟩
  · intro cfCall program
    have ids := mulacc_programCall silent program
    refine ⟨?_, trivial⟩
    change cfCall.cfId < 1024
    omega
  · intro cfCall program solo other same
    exact (marksChange program).sees cfCall.a cfCall.b same
  · intro cfCall program solo clean
    exact (marksChange program).marks cfCall.a cfCall.b solo clean

theorem nnAcc_programCall {allowed : Nat → Prop} (silent : ¬allowed 1)
    {cfCall : CfCall} (program : nnAcc.ProgramCall allowed cfCall) :
    cfCall.cfId = 0 ∨ cfCall.cfId = 2 ∨ cfCall.cfId = 1021 := by
  rcases program with ⟨⟨userId, _⟩, isAllowed⟩ | ⟨readState, _⟩
  · change cfCall.cfId < 3 at userId
    have notReset : cfCall.cfId ≠ 1 := by
      intro same
      rw [same] at isAllowed
      exact silent isAllowed
    omega
  · exact Or.inr (Or.inr readState)

theorem nnAcc_marksChanges {allowed : Nat → Prop} (silent : ¬allowed 1) :
    nnAcc.MarksChanges allowed := by
  have marksChange : ∀ {cfCall}, nnAcc.ProgramCall allowed cfCall →
      SoloAcc.MarksChange (NnAcc.soloFunc cfCall.cfId) := by
    intro cfCall program
    rcases nnAcc_programCall silent program with same | same | same
    · rw [same]
      exact SoloAcc.accumulate_marksChange
    · rw [same]
      exact SoloAcc.relu_marksChange
    · rw [same]
      exact SoloAcc.readState_marksChange
  apply @Cxu.marksChanges_of_solo nnAcc _ _ allowed Accumulator.soloOf
    (fun solo call => NnAcc.soloFunc call.cfId call.a call.b solo)
    SoloAcc.acc SoloAcc.status soloOf_wordsAlike_iff (fun _ _ => rfl)
  · intro sysSel context located cfCall admissible state
    exact nnAcc_simulates state
      ⟨sysSel, context, located, cfCall, admissible.1⟩
  · intro cfCall program
    have ids := nnAcc_programCall silent program
    refine ⟨?_, trivial⟩
    change cfCall.cfId < 1024
    omega
  · intro cfCall program solo other same
    exact (marksChange program).sees cfCall.a cfCall.b same
  · intro cfCall program solo clean
    exact (marksChange program).marks cfCall.a cfCall.b solo clean

theorem vector_programCall {allowed : Nat → Prop} {cfCall : CfCall}
    (program : vector.ProgramCall allowed cfCall) :
    vector.Admissible cfCall ∧
      (cfCall.cfId = 0 ∨ cfCall.cfId = 1 ∨ cfCall.cfId = 2 ∨
        cfCall.cfId = 3 ∨ cfCall.cfId = 1021) := by
  rcases program with ⟨⟨userId, admitted⟩, _⟩ | ⟨readState, admitted⟩
  · change cfCall.cfId < 4 at userId
    refine ⟨⟨?_, admitted⟩, by omega⟩
    change cfCall.cfId < 1024
    omega
  · refine ⟨⟨?_, ?_⟩, by omega⟩
    · rw [readState]
      decide
    · rw [readState]
      exact admitted

theorem vector_marksChanges (allowed : Nat → Prop) :
    vector.MarksChanges allowed := by
  apply @Cxu.marksChanges_of_solo vector _ _ allowed Vector.soloOf
    (fun solo call => Vector.soloFunc call.cfId call.a call.b solo)
    Vector.SoloVec.regs Vector.SoloVec.status vector_words_iff
    (fun _ _ => rfl) vector_simulates
  · exact fun program => (vector_programCall program).1
  · rintro ⟨cfId, a, b⟩ program solo other sameRegs
    obtain ⟨_, same | same | same | same | same⟩ := vector_programCall program
    all_goals cases same
    · simp [Vector.soloFunc, Vector.SoloVec.add, Vector.SoloVec.setReg,
        Vector.SoloVec.setDc, sameRegs]
    · simp [Vector.soloFunc, Vector.SoloVec.fill, Vector.SoloVec.setReg,
        Vector.SoloVec.setDc, sameRegs]
    · simp [Vector.soloFunc, Vector.SoloVec.fill, Vector.SoloVec.setReg,
        Vector.SoloVec.setDc, sameRegs]
    · exact ⟨rfl, sameRegs⟩
    · simp [Vector.soloFunc, Vector.SoloVec.readState, sameRegs]
  · rintro ⟨cfId, a, b⟩ program solo clean
    obtain ⟨_, same | same | same | same | same⟩ := vector_programCall program
    all_goals cases same
    · cases clean
    · cases clean
    · cases clean
    · exact ⟨clean, rfl⟩
    · exact ⟨clean, rfl⟩

/-! ## Erasures are lost -/

namespace Cxu

variable {cxu : Cxu}

/-- No logical context is in the hardware, and each has the image of a context
of a settled CXU. -/
theorem lazyVirtual_of_images {κ : Type} (here : cxu.Context)
    {state : cxu.State} (settled : state.AllSettled cxu.stateSize)
    {machines : κ → cxu.State}
    (machinesSettled : ∀ user, (machines user).AllSettled cxu.stateSize) :
    LazyVirtual here
      { device := state
        placement := .empty
        images := fun user => cxu.imageOf (machines user) here } machines where
  kept := settled
  resident resides := by cases resides
  absent _ := ⟨restingWord_iff.mpr (machinesSettled _ here), rfl⟩

/-- A run in which the last answer of a user is not the one it gets alone. -/
theorem not_lazilyVirtualises {allowed : Nat → Prop}
    (selectors : cxu.Selectors) (here : cxu.Context) {κ : Type}
    [DecidableEq κ] {machines : κ → cxu.State}
    (machinesSettled : ∀ user, (machines user).AllSettled cxu.stateSize)
    (turns : List (Multiplex.Turn cxu.Context κ (cxu.AllowedCall allowed)))
    {plain : List (Multiplex.Turn cxu.Context κ CfCall)}
    (isPlain : turns.map (Multiplex.Turn.map Subtype.val) = plain) (user : κ)
    {calls : List CfCall}
    (own : (Product.only user (turns.map Multiplex.Turn.tagged)).map
      Subtype.val = calls) {lazyLast aloneLast : Returned}
    (ranLazily : (Transition.run (Multiplex.step (cxu.lazyDevice selectors))
        { device := cxu.initial
          placement := .empty
          images := fun user => cxu.imageOf (machines user) here } plain).bind
        (fun ran => (Product.only user ran.2).getLast?) = some lazyLast)
    (ranAlone : (cxu.runOn (selectors.sel here) (machines user) calls).bind
      (fun ran => ran.2.getLast?) = some aloneLast)
    (different : lazyLast ≠ aloneLast) :
    ¬cxu.LazilyVirtualises allowed := by
  intro virtualises
  obtain ⟨final, answers, ran, alone⟩ := virtualises selectors here
    (lazyVirtual_of_images here cxu.initial_settled machinesSettled) turns
  obtain ⟨moved, ranUser⟩ := alone user
  rw [programDevice, Multiplex.run_comap, isPlain] at ran
  rw [ran, Option.bind_some] at ranLazily
  rw [own] at ranUser
  rw [ranUser, Option.bind_some, ranLazily] at ranAlone
  exact different (Option.some.inj ranAlone)

end Cxu

def Mulacc.holding (acc : Word) : mulacc.State :=
  Accumulator.setAcc Mulacc.initCxFuncMulacc Mulacc.firstContext acc

private theorem mulacc_erasure_lost {allowed : Nat → Prop} {cfId : Nat}
    (isAllowed : allowed cfId) (erases : cfId = 1 ∨ cfId = 3 ∨ cfId = 4) :
    ¬mulacc.LazilyVirtualises allowed := by
  have user : mulacc.UserCall ⟨cfId, 0, 0⟩ := by
    refine ⟨?_, trivial⟩
    change cfId < 5
    omega
  let erase : mulacc.AllowedCall allowed :=
    ⟨⟨cfId, 0, 0⟩, Or.inl ⟨user, isAllowed⟩⟩
  let read : mulacc.AllowedCall allowed :=
    ⟨⟨1021, 0, 0⟩, Or.inr ⟨rfl, trivial⟩⟩
  apply @Cxu.not_lazilyVirtualises mulacc allowed Mulacc.selectors
    Mulacc.firstContext Bool _
    (fun other => Mulacc.holding (if other then 0 else 5))
    (fun _ => mulacc.initial_settled)
    [⟨false, Mulacc.firstContext, erase⟩, ⟨true, Mulacc.firstContext, read⟩,
      ⟨false, Mulacc.firstContext, read⟩]
    [⟨false, Mulacc.firstContext, ⟨cfId, 0, 0⟩⟩,
      ⟨true, Mulacc.firstContext, ⟨1021, 0, 0⟩⟩,
      ⟨false, Mulacc.firstContext, ⟨1021, 0, 0⟩⟩] rfl false
    [⟨cfId, 0, 0⟩, ⟨1021, 0, 0⟩] rfl (some 5) (some 0)
  · rcases erases with rfl | rfl | rfl <;> rfl
  · rcases erases with rfl | rfl | rfl <;> rfl
  · decide

def NnAcc.firstContext : NnAcc.Context := (⟨0, Nat.one_pos⟩, ⟨0, Nat.two_pos⟩)

def NnAcc.holding (acc : Word) : nnAcc.State :=
  Accumulator.setAcc NnAcc.initCxFuncNnAcc NnAcc.firstContext acc

private theorem nnAcc_erasure_lost {allowed : Nat → Prop}
    (isAllowed : allowed 1) :
    ¬nnAcc.LazilyVirtualises allowed := by
  let erase : nnAcc.AllowedCall allowed :=
    ⟨⟨1, 0, 0⟩, Or.inl ⟨⟨by decide, trivial⟩, isAllowed⟩⟩
  let read : nnAcc.AllowedCall allowed :=
    ⟨⟨1021, 0, 0⟩, Or.inr ⟨rfl, trivial⟩⟩
  apply @Cxu.not_lazilyVirtualises nnAcc allowed NnAcc.selectors
    NnAcc.firstContext Bool _
    (fun other => NnAcc.holding (if other then 0 else 5))
    (fun _ => nnAcc.initial_settled)
    [⟨false, NnAcc.firstContext, erase⟩, ⟨true, NnAcc.firstContext, read⟩,
      ⟨false, NnAcc.firstContext, read⟩]
    [⟨false, NnAcc.firstContext, ⟨1, 0, 0⟩⟩,
      ⟨true, NnAcc.firstContext, ⟨1021, 0, 0⟩⟩,
      ⟨false, NnAcc.firstContext, ⟨1021, 0, 0⟩⟩] rfl false
    [⟨1, 0, 0⟩, ⟨1021, 0, 0⟩] rfl (some 5) (some 0)
  · rfl
  · rfl
  · decide

/-- Spilling only dirty contexts goes unnoticed exactly if programs call no
function that erases an accumulator without marking it. -/
theorem lazy_spill_unnoticed_iff (allowed : Nat → Prop) :
    (mulacc.LazilyVirtualises allowed ↔
      ¬allowed 1 ∧ ¬allowed 3 ∧ ¬allowed 4) ∧
    (nnAcc.LazilyVirtualises allowed ↔ ¬allowed 1) ∧
    vector.LazilyVirtualises allowed := by
  refine ⟨⟨?_, ?_⟩, ⟨?_, ?_⟩, ?_⟩
  · intro virtualises
    refine ⟨?_, ?_, ?_⟩
    · exact fun isAllowed => mulacc_erasure_lost isAllowed (by simp) virtualises
    · exact fun isAllowed => mulacc_erasure_lost isAllowed (by simp) virtualises
    · exact fun isAllowed => mulacc_erasure_lost isAllowed (by simp) virtualises
  · exact fun silent => Cxu.lazilyVirtualises mulacc_wordAccess
      mulacc_actsLocally (mulacc_marksChanges silent)
  · exact fun virtualises isAllowed =>
      nnAcc_erasure_lost isAllowed virtualises
  · exact fun silent => Cxu.lazilyVirtualises nnAcc_wordAccess
      nnAcc_actsLocally (nnAcc_marksChanges silent)
  · exact Cxu.lazilyVirtualises vector_wordAccess vector_actsLocally
      (vector_marksChanges allowed)

end CxRuntime
