import CxRuntime.Threads.LogicalAccumulators
import Mathlib.Algebra.BigOperators.Fin
import Mathlib.Data.BitVec

/-!
# Sums on shared accumulators

The threads of `examples/threaded_test.c`: each accumulates the square of a
value some number of times, on a logical context that it may share with others.  Sums
commute, so no schedule matters, whoever shares with whom.
-/

namespace CxRuntime.Threads

/-- `mac_worker_t`. -/
structure MacWorker (κ : Type) where
  sel : κ
  val : Word
  N : Nat

section Workers

variable {κ : Type} (kernel : mulacc.Kernel κ)

structure MacPool (nThreads : Nat) where
  accs : kernel.State
  done : Fin nThreads → Nat

variable {kernel} {nThreads : Nat} (workers : Fin nThreads → MacWorker κ)

/-- The next turn of the loop of `cx_mac_thread_2`; `cx_mac_thread_1` has one. -/
def cxMacThread (pool : MacPool kernel nThreads)
    (turn : Fin nThreads × kernel.Choice) : Option (MacPool kernel nThreads) :=
  let worker := workers turn.1
  if pool.done turn.1 < worker.N then
    (kernel.exec worker.sel turn.2 (mac worker.val worker.val)
        pool.accs).map fun answer =>
      { accs := answer.2
        done := Function.update pool.done turn.1 (pool.done turn.1 + 1) }
  else some pool

/-- `res += CX_READ_STATE(0)` with the context of a thread selected. -/
def collectState (choices : Fin nThreads → kernel.Choice)
    (state : Word × kernel.State) (tid : Fin nThreads) :
    Option (Word × kernel.State) := do
  let answer ←
    kernel.exec (workers tid).sel (choices tid) readState state.2
  let word ← answer.1
  some (state.1 + word, answer.2)

def collect (choices : Fin nThreads → kernel.Choice) (accs : kernel.State) :
    Option (Word × kernel.State) :=
  (List.finRange nThreads).foldlM (collectState workers choices) (0, accs)

end Workers

/-! ## The sums -/

section Sums

variable {κ : Type} {nThreads : Nat}

/-- What the threads of a context have added to its accumulator. -/
def macSum [DecidableEq κ] (workers : Fin nThreads → MacWorker κ)
    (done : Fin nThreads → Nat) (context : κ) : Word :=
  ∑ tid with (workers tid).sel = context,
    BitVec.ofNat 32 (done tid) * ((workers tid).val * (workers tid).val)

def advance {χ : Type} (workers : Fin nThreads → MacWorker κ)
    (done : Fin nThreads → Nat) (turn : Fin nThreads × χ) :
    Fin nThreads → Nat :=
  if done turn.1 < (workers turn.1).N then
    Function.update done turn.1 (done turn.1 + 1)
  else done

variable [DecidableEq κ]

private theorem macSum_start (workers : Fin nThreads → MacWorker κ)
    (context : κ) :
    macSum workers (fun _ => 0) context = 0 := by
  apply Finset.sum_eq_zero
  intro tid _
  exact BitVec.zero_mul

private theorem macSum_update (workers : Fin nThreads → MacWorker κ)
    (done : Fin nThreads → Nat) (mover : Fin nThreads) (context : κ) :
    macSum workers (Function.update done mover (done mover + 1)) context =
      macSum workers done context +
        if (workers mover).sel = context then
          (workers mover).val * (workers mover).val
        else 0 := by
  have term : ∀ tid, BitVec.ofNat 32 (Function.update done mover
      (done mover + 1) tid) * ((workers tid).val * (workers tid).val) =
        BitVec.ofNat 32 (done tid) * ((workers tid).val * (workers tid).val) +
          if tid = mover then (workers mover).val * (workers mover).val
          else 0 := by
    intro tid
    by_cases moves : tid = mover
    · subst moves
      rw [Function.update_self, if_pos rfl, BitVec.ofNat_add, add_mul]
      exact congrArg _ (BitVec.one_mul _)
    · rw [Function.update_of_ne moves, if_neg moves, add_zero]
  simp only [macSum, term, Finset.sum_add_distrib, Finset.sum_ite_eq',
    Finset.mem_filter, Finset.mem_univ, true_and]

section Run

variable {kernel : mulacc.Kernel κ} {selectors : mulacc.Selectors}
  {here : mulacc.Context}
  {stands : kernel.State → (κ → mulacc.State) → Prop}
  {workers : Fin nThreads → MacWorker κ} {start : κ → Word}

def Summed (here : mulacc.Context)
    (stands : kernel.State → (κ → mulacc.State) → Prop)
    (workers : Fin nThreads → MacWorker κ) (start : κ → Word)
    (pool : MacPool kernel nThreads) : Prop :=
  ∃ machines, stands pool.accs machines ∧
    ∀ context, (soloOf here (machines context)).acc =
      start context + macSum workers pool.done context

private theorem cxMacThread_summed
    (faithful : kernel.Faithful (selectors.sel here) stands)
    (pool : MacPool kernel nThreads) (turn : Fin nThreads × kernel.Choice)
    (summed : Summed here stands workers start pool) :
    ∃ next, cxMacThread workers pool turn = some next ∧
      Summed here stands workers start next ∧
      next.done = advance workers pool.done turn := by
  obtain ⟨machines, isStanding, accEq⟩ := summed
  by_cases more : pool.done turn.1 < (workers turn.1).N
  · obtain ⟨accs, moved, executed, standsNext, movedEq⟩ :=
      exec_eq faithful isStanding (workers turn.1).sel turn.2
        (mac (workers turn.1).val (workers turn.1).val)
    refine ⟨{ accs := accs
              done := advance workers pool.done turn }, ?_, ?_, rfl⟩
    · rw [cxMacThread, if_pos more, executed, Option.map_some, advance,
        if_pos more]
    · refine ⟨_, standsNext, ?_⟩
      intro context
      rw [advance, if_pos more, macSum_update, ← add_assoc, ← accEq context]
      by_cases shared : (workers turn.1).sel = context
      · subst shared
        rw [Function.update_self, movedEq, if_pos rfl]
        rfl
      · have other : context ≠ (workers turn.1).sel := fun same =>
          shared same.symm
        rw [Function.update_of_ne other, if_neg shared, add_zero]
  · refine ⟨pool, ?_, ⟨machines, isStanding, accEq⟩, ?_⟩
    · rw [cxMacThread, if_neg more]
    · rw [advance, if_neg more]

omit [DecidableEq κ] in
private theorem foldl_advance {χ : Type} (schedule : List (Fin nThreads × χ))
    (done : Fin nThreads → Nat) (tid : Fin nThreads)
    (within : done tid ≤ (workers tid).N) :
    schedule.foldl (advance workers) done tid =
      min (workers tid).N
        (done tid + (schedule.map Prod.fst).count tid) := by
  induction schedule generalizing done with
  | nil => simp [within]
  | cons turn schedule induction =>
      rw [List.foldl_cons, List.map_cons]
      by_cases more : done turn.1 < (workers turn.1).N
      · by_cases mine : turn.1 = tid
        · subst mine
          have moved : advance workers done turn turn.1 = done turn.1 + 1 := by
            rw [advance, if_pos more, Function.update_self]
          rw [induction _ (by omega), moved, List.count_cons_self]
          omega
        · have kept : advance workers done turn tid = done tid := by
            rw [advance, if_pos more,
              Function.update_of_ne fun same => mine same.symm]
          rw [induction _ (by omega), kept, List.count_cons_of_ne mine]
      · have kept : advance workers done turn = done := if_neg more
        rw [kept, induction done within]
        by_cases mine : turn.1 = tid
        · subst mine
          omega
        · rw [List.count_cons_of_ne mine]

theorem readState_eq (faithful : kernel.Faithful (selectors.sel here) stands)
    {accs : kernel.State} {machines : κ → mulacc.State}
    (isStanding : stands accs machines) (context : κ)
    (choice : kernel.Choice) :
    ∃ next after,
      kernel.exec context choice readState accs =
        some (some (soloOf here (machines context)).acc, next) ∧
      stands next after ∧
      ∀ other, soloOf here (after other) = soloOf here (machines other) := by
  obtain ⟨next, moved, executed, standsNext, movedEq⟩ :=
    exec_eq faithful isStanding context choice readState
  refine ⟨next, _, executed, standsNext, ?_⟩
  intro other
  by_cases same : other = context
  · subst same
    rw [Function.update_self]
    exact movedEq
  · rw [Function.update_of_ne same]

theorem collect_eq (faithful : kernel.Faithful (selectors.sel here) stands)
    (choices : Fin nThreads → kernel.Choice) {accs : kernel.State}
    {machines : κ → mulacc.State} (isStanding : stands accs machines) :
    ∃ next, collect workers choices accs =
      some (∑ tid, (soloOf here (machines (workers tid).sel)).acc, next) := by
  have loop : ∀ (tids : List (Fin nThreads)) (res : Word)
      {accs : kernel.State} {after : κ → mulacc.State}, stands accs after →
      (∀ context, soloOf here (after context) =
        soloOf here (machines context)) →
      ∃ next, tids.foldlM (collectState workers choices) (res, accs) =
        some (res + (tids.map fun tid =>
          (soloOf here (machines (workers tid).sel)).acc).sum, next) := by
    intro tids
    induction tids with
    | nil =>
        intro res accs after _ _
        refine ⟨accs, ?_⟩
        rw [List.foldlM_nil, List.map_nil, List.sum_nil, add_zero]
        rfl
    | cons tid tids induction =>
        intro res accs after isStanding same
        obtain ⟨next, last, executed, standsNext, kept⟩ :=
          readState_eq faithful isStanding (workers tid).sel (choices tid)
        obtain ⟨final, ran⟩ := induction
          (res + (soloOf here (machines (workers tid).sel)).acc) standsNext
          fun context => (kept context).trans (same context)
        refine ⟨final, ?_⟩
        rw [List.foldlM_cons, collectState, executed, same (workers tid).sel]
        rw [List.map_cons, List.sum_cons, ← add_assoc]
        exact ran
  obtain ⟨next, ran⟩ := loop (List.finRange nThreads) 0 isStanding
    fun _ => rfl
  refine ⟨next, ?_⟩
  rw [collect, ran, zero_add, Fin.sum_univ_def]

end Run

end Sums

/-- Under any schedule and any choices of the kernel, a logical context grows by
the squares of the threads on it, and this is what the main thread reads and
collects. -/
theorem shared_sums_any_schedule {κ : Type} [DecidableEq κ]
    {kernel : mulacc.Kernel κ} {selectors : mulacc.Selectors}
    {here : mulacc.Context}
    {stands : kernel.State → (κ → mulacc.State) → Prop}
    (faithful : kernel.Faithful (selectors.sel here) stands) {nThreads : Nat}
    (workers : Fin nThreads → MacWorker κ) {accs : kernel.State}
    {machines : κ → mulacc.State} (isStanding : stands accs machines)
    (schedule : List (Fin nThreads × kernel.Choice)) :
    ∃ final,
      schedule.foldlM (cxMacThread workers)
          { accs := accs, done := fun _ => 0 } = some final ∧
      (∀ tid, final.done tid =
        min (workers tid).N ((schedule.map Prod.fst).count tid)) ∧
      (∀ context choice, ∃ next,
        kernel.exec context choice readState final.accs =
          some (some ((soloOf here (machines context)).acc +
            macSum workers final.done context), next)) ∧
      ∀ choices, ∃ next,
        collect workers choices final.accs =
          some (∑ tid, ((soloOf here (machines (workers tid).sel)).acc +
            macSum workers final.done (workers tid).sel), next) := by
  have started : Summed here stands workers
      (fun context => (soloOf here (machines context)).acc)
      { accs := accs, done := fun _ => 0 } := by
    refine ⟨machines, isStanding, ?_⟩
    intro context
    rw [macSum_start, add_zero]
  obtain ⟨final, ran, ⟨after, finalStands, accEq⟩, doneEq⟩ :=
    Transition.foldlM_view MacPool.done (advance workers) _
      (cxMacThread_summed faithful) schedule started
  refine ⟨final, ran, ?_, ?_, ?_⟩
  · intro tid
    rw [doneEq, foldl_advance schedule _ tid (Nat.zero_le _), Nat.zero_add]
  · intro context choice
    obtain ⟨next, _, executed, _, _⟩ :=
      readState_eq faithful finalStands context choice
    refine ⟨next, ?_⟩
    rw [executed, accEq]
  · intro choices
    obtain ⟨next, collected⟩ :=
      @collect_eq _ _ _ _ _ _ _ workers faithful choices _ _ finalStands
    refine ⟨next, ?_⟩
    rw [collected]
    simp only [accEq]

/-- Ten threads on one context, once each: `N * a * a`. -/
theorem shared_sums_any_schedule_ten :
    let schedule : List (Fin 10 × (savingKernel Unit).Choice) :=
      (List.finRange 10).map fun tid => (tid, Mulacc.firstContext)
    ∃ final next,
      schedule.foldlM (cxMacThread fun _ => ⟨(), 5, 1⟩)
          { accs := freshAccs Unit, done := fun _ => 0 } = some final ∧
        (savingKernel Unit).exec () Mulacc.firstContext readState
          final.accs = some (some 250, next) := by
  intro schedule
  obtain ⟨final, ran, done, reads, _⟩ :=
    shared_sums_any_schedule savingKernel_faithful
      (fun _ : Fin 10 => MacWorker.mk () 5 1) freshAccs_virtual schedule
  have doneEq : final.done = fun _ => 1 := by
    funext tid
    rw [done]
    revert tid
    decide
  obtain ⟨next, read⟩ := reads () Mulacc.firstContext
  refine ⟨final, next, ran, ?_⟩
  rw [read, doneEq]
  rfl

end CxRuntime.Threads
