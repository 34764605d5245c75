import CxRuntime.QueueRefinement
import Mathlib.Data.List.Perm.Basic

/-!
# The queue as a pool of state ids

`avail_state_ids` is a queue that starts with every id.  A pool pairs it with
the ids handed out and not yet returned, a value the code does not store.  The
two lists together stay a permutation of all ids, so a returned id always finds
room, and the order in which ids are reused is that of the FIFO list.
-/

namespace CxRuntime

structure Pool where
  queue : Queue
  handedOut : List Int

/-- One call on the pool, labelled with the ids it hands out. -/
inductive PoolStep : Pool → List Int → Pool → Prop where
  | dequeued {pool : Pool} {next : Queue} {id : Int} :
      dequeue pool.queue = some (next, id) → id ≠ -1 →
      PoolStep pool [id] ⟨next, id :: pool.handedOut⟩
  | exhausted {pool : Pool} {next : Queue} :
      dequeue pool.queue = some (next, -1) →
      PoolStep pool [] ⟨next, pool.handedOut⟩
  | returned {pool : Pool} {next : Queue} {id : Int} :
      id ∈ pool.handedOut → enqueue pool.queue id = some next →
      PoolStep pool [] ⟨next, pool.handedOut.erase id⟩

/-- A run of the pool with the ids it handed out, in order. -/
inductive PoolRun (start : Pool) : List Int → Pool → Prop where
  | refl : PoolRun start [] start
  | step {handed label : List Int} {pool next : Pool} :
      PoolRun start handed pool → PoolStep pool label next →
      PoolRun start (handed ++ label) next

/-- The free ids and the ids handed out are all ids, each once. -/
def Balanced (capacity : Nat) (pool : Pool) : Prop :=
  ∃ items, Represents capacity pool.queue items ∧
    (items ++ pool.handedOut).Perm (ids capacity)

private theorem mem_ids {capacity : Nat} {id : Int} :
    id ∈ ids capacity ↔ 0 ≤ id ∧ id < capacity := by
  constructor
  · intro member
    obtain ⟨index, below, rfl⟩ := List.mem_map.mp member
    have := List.mem_range.mp below
    omega
  · intro inRange
    obtain ⟨nonneg, below⟩ := inRange
    refine List.mem_map.mpr ⟨id.toNat, List.mem_range.mpr (by omega), ?_⟩
    omega

private theorem nodup_ids (capacity : Nat) : (ids capacity).Nodup :=
  List.nodup_range.map fun _ _ equality => Int.ofNat_inj.mp equality

namespace Balanced

variable {capacity : Nat} {pool : Pool}

private theorem nodup_append (balanced : Balanced capacity pool) :
    (pool.queue.items ++ pool.handedOut).Nodup := by
  obtain ⟨items, ⟨_, _, rfl⟩, permutation⟩ := balanced
  exact permutation.nodup_iff.mpr (nodup_ids capacity)

theorem mem_iff (balanced : Balanced capacity pool) (id : Int) :
    id ∈ pool.queue.items ∨ id ∈ pool.handedOut ↔ 0 ≤ id ∧ id < capacity := by
  obtain ⟨items, ⟨_, _, rfl⟩, permutation⟩ := balanced
  rw [← List.mem_append, permutation.mem_iff, mem_ids]

/-- An id that is out leaves room for its return. -/
theorem room (balanced : Balanced capacity pool) {id : Int}
    (out : id ∈ pool.handedOut) : pool.queue.items.length < capacity := by
  obtain ⟨items, ⟨_, _, rfl⟩, permutation⟩ := balanced
  have total := permutation.length_eq
  have outPositive := List.length_pos_of_mem out
  simp only [List.length_append, ids, List.length_map,
    List.length_range] at total
  omega

theorem represents (balanced : Balanced capacity pool) :
    Represents capacity pool.queue pool.queue.items := by
  obtain ⟨items, ⟨placed, fits, rfl⟩, _⟩ := balanced
  exact ⟨placed, fits, rfl⟩

/-! ### The three steps -/

private theorem dequeued (balanced : Balanced capacity pool) {next : Queue}
    {id : Int}
    (ran : dequeue pool.queue = some (next, id)) (notEmpty : id ≠ -1) :
    pool.queue.items = id :: next.items ∧
      Balanced capacity ⟨next, id :: pool.handedOut⟩ := by
  obtain ⟨_, dequeuedEq, nextRepresents⟩ := balanced.represents.dequeue_eq
  obtain ⟨items, ⟨_, _, rfl⟩, permutation⟩ := balanced
  rw [ran] at dequeuedEq
  obtain ⟨rfl, idEq⟩ := Prod.mk.inj (Option.some.inj dequeuedEq)
  cases itemsEq : pool.queue.items with
  | nil => simp [idEq, itemsEq] at notEmpty
  | cons head rest =>
      have idHead : id = head := by simpa [itemsEq] using idEq
      subst idHead
      rw [itemsEq] at permutation nextRepresents
      have nextItems : next.items = rest := nextRepresents.2.2
      refine ⟨by rw [nextItems], rest, nextRepresents, ?_⟩
      exact List.perm_middle.trans permutation

/-- The queue answers `-1` only when it is empty, as all ids are at least 0. -/
theorem exhausted (balanced : Balanced capacity pool) {next : Queue}
    (ran : dequeue pool.queue = some (next, -1)) :
    next.items = pool.queue.items ∧ Balanced capacity ⟨next, pool.handedOut⟩ := by
  obtain ⟨_, dequeuedEq, nextRepresents⟩ := balanced.represents.dequeue_eq
  have inRange := balanced.mem_iff
  obtain ⟨items, ⟨_, _, rfl⟩, permutation⟩ := balanced
  rw [ran] at dequeuedEq
  cases itemsEq : pool.queue.items with
  | nil =>
      rw [itemsEq] at permutation nextRepresents dequeuedEq
      cases dequeuedEq
      exact ⟨nextRepresents.2.2, [], nextRepresents, permutation⟩
  | cons head rest =>
      rw [itemsEq] at dequeuedEq
      have headEq : head = -1 := by
        simpa using congrArg Prod.snd (Option.some.inj dequeuedEq).symm
      have headRange := (inRange head).mp (by simp [itemsEq])
      omega

theorem returned (balanced : Balanced capacity pool) {next : Queue} {id : Int}
    (out : id ∈ pool.handedOut) (ran : enqueue pool.queue id = some next) :
    next.items = pool.queue.items ++ [id] ∧
      Balanced capacity ⟨next, pool.handedOut.erase id⟩ := by
  obtain ⟨_, enqueuedEq, nextRepresents⟩ :=
    balanced.represents.enqueue_append (balanced.room out) id
  obtain ⟨items, ⟨_, _, rfl⟩, permutation⟩ := balanced
  rw [ran] at enqueuedEq
  cases enqueuedEq
  refine ⟨nextRepresents.2.2, _, nextRepresents, ?_⟩
  have regroup : pool.queue.items ++ [id] ++ pool.handedOut.erase id =
      pool.queue.items ++ (id :: pool.handedOut.erase id) := by
    rw [List.append_assoc, List.singleton_append]
  rw [regroup]
  exact (List.Perm.append_left _ (List.perm_cons_erase out).symm).trans
    permutation

/-- A step keeps the balance and moves the list of free ids as a FIFO list. -/
theorem step {label : List Int} {next : Pool}
    (balanced : Balanced capacity pool) (stepped : PoolStep pool label next) :
    Balanced capacity next ∧
      ∀ {start taken put}, BoundedFifo.Flow start taken put pool.queue.items →
        ∃ put', BoundedFifo.Flow start (taken ++ label) put' next.queue.items := by
  cases stepped with
  | dequeued ran notEmpty =>
      obtain ⟨itemsEq, nextBalanced⟩ := balanced.dequeued ran notEmpty
      refine ⟨nextBalanced, ?_⟩
      intro start taken put flow
      rw [itemsEq] at flow
      exact ⟨put, .take flow⟩
  | exhausted ran =>
      obtain ⟨itemsEq, nextBalanced⟩ := balanced.exhausted ran
      refine ⟨nextBalanced, ?_⟩
      intro start taken put flow
      refine ⟨put, ?_⟩
      rw [List.append_nil]
      exact itemsEq ▸ flow
  | @returned nextQueue id out ran =>
      obtain ⟨itemsEq, nextBalanced⟩ := balanced.returned out ran
      refine ⟨nextBalanced, ?_⟩
      intro start taken put flow
      refine ⟨put ++ [id], ?_⟩
      rw [List.append_nil]
      exact itemsEq ▸ .put id flow

theorem run {handed : List Int} {final : Pool}
    (balanced : Balanced capacity pool) (ran : PoolRun pool handed final) :
    Balanced capacity final ∧
      ∃ put, BoundedFifo.Flow pool.queue.items handed put final.queue.items := by
  induction ran with
  | refl => exact ⟨balanced, [], .refl⟩
  | step _ stepped induction =>
      obtain ⟨middleBalanced, put, flow⟩ := induction
      obtain ⟨nextBalanced, follow⟩ := middleBalanced.step stepped
      exact ⟨nextBalanced, follow flow⟩

end Balanced

/-- What the pool guarantees at one point of a run. -/
structure PoolGuarantees (capacity : Nat) (pool : Pool) : Prop where
  free_nodup : pool.queue.items.Nodup
  out_nodup : pool.handedOut.Nodup
  disjoint : ∀ id ∈ pool.queue.items, id ∉ pool.handedOut
  complete : ∀ id, id ∈ pool.queue.items ∨ id ∈ pool.handedOut ↔
    0 ≤ id ∧ id < capacity
  /-- A return is never dropped. -/
  kept : ∀ id ∈ pool.handedOut, ∃ next, enqueue pool.queue id = some next ∧
    next.items = pool.queue.items ++ [id]
  exhausted : ∃ next id, dequeue pool.queue = some (next, id) ∧
    (id = -1 ↔ ∀ other : Int, 0 ≤ other → other < capacity →
      other ∈ pool.handedOut)
  /-- A returned id is handed out again only after every id that was free when
  it was returned. -/
  ordered : ∀ id ∈ pool.handedOut, ∀ next, enqueue pool.queue id = some next →
    ∀ handed final,
      PoolRun ⟨next, pool.handedOut.erase id⟩ handed final → id ∈ handed →
      ∀ earlier ∈ pool.queue.items, earlier ∈ handed.takeWhile (· ≠ id)

private theorem Balanced.guarantees {capacity : Nat} {pool : Pool}
    (balanced : Balanced capacity pool) : PoolGuarantees capacity pool := by
  have nodup := balanced.nodup_append
  have represented := balanced.represents
  have disjoint : ∀ id ∈ pool.queue.items, id ∉ pool.handedOut :=
    fun id free out => (List.disjoint_of_nodup_append nodup) free out
  have complete := balanced.mem_iff
  refine ⟨nodup.of_append_left, nodup.of_append_right, disjoint, complete,
    ?_, ?_, ?_⟩
  · intro id out
    obtain ⟨next, enqueued, nextRepresents⟩ :=
      represented.enqueue_append (balanced.room out) id
    exact ⟨next, enqueued, nextRepresents.2.2⟩
  · obtain ⟨next, dequeued, _⟩ := represented.dequeue_eq
    refine ⟨next, _, dequeued, ?_⟩
    cases itemsEq : pool.queue.items with
    | nil =>
        simp only [List.head?_nil, Option.getD_none, true_iff]
        intro other nonneg below
        simpa [itemsEq] using (complete other).mpr ⟨nonneg, below⟩
    | cons head rest =>
        have headFree : head ∈ pool.queue.items := by simp [itemsEq]
        have headRange := (complete head).mp (Or.inl headFree)
        simp only [List.head?_cons, Option.getD_some]
        constructor
        · intro negative
          omega
        · intro allOut
          exact absurd (allOut head headRange.1 headRange.2)
            (disjoint head headFree)
  · intro id out next enqueued handed final ran left
    obtain ⟨itemsEq, nextBalanced⟩ := balanced.returned out enqueued
    obtain ⟨_, put, flow⟩ := nextBalanced.run ran
    have fresh : id ∉ pool.queue.items := fun free => disjoint id free out
    rw [itemsEq] at flow
    exact flow.taken_after fresh left

/-- `make_queue` returns a queue, and at every point of every run of the pool in
which only ids that are out are returned, the guarantees hold. -/
def PoolsIds (heap : Heap) (capacity : Nat) : Prop :=
  ∃ queue, makeQueue heap (capacity : Int) = some (some queue) ∧
    ∀ handed pool, PoolRun ⟨queue, []⟩ handed pool →
      PoolGuarantees capacity pool

private theorem not_poolsIds {heap : Heap} {capacity : Nat}
    (faults : makeQueue heap (capacity : Int) = none) :
    ¬PoolsIds heap capacity := by
  rintro ⟨queue, made, _⟩
  rw [faults] at made
  cases made

/-- Of a heap that serves both allocations, `make_queue` makes a pool of ids
exactly if the size of the block does not wrap. -/
theorem pool_guarantees_iff_size_fits {heap : Heap} {capacity : Nat}
    (int32 : capacity < 2147483648) (serves : heap.Serves capacity) :
    PoolsIds heap capacity ↔ 4 * capacity < 4294967296 := by
  constructor
  · intro pools
    by_contra wraps
    exact not_poolsIds (makeQueue_overruns int32 serves wraps) pools
  · intro fits
    obtain ⟨queue, made, represented⟩ := makeQueue_represents int32 serves fits
    have startBalanced : Balanced capacity ⟨queue, []⟩ :=
      ⟨ids capacity, represented, by simp⟩
    exact ⟨queue, made, fun _ _ ran => (startBalanced.run ran).1.guarantees⟩

/-- Both ids are handed out, 0 comes back and is handed out again. -/
theorem pool_guarantees_two :
    ∃ queue final, makeQueue roomyHeap 2 = some (some queue) ∧
      PoolRun ⟨queue, []⟩ [0, 1, 0] ⟨final, [0, 1]⟩ ∧
      PoolGuarantees 2 ⟨final, [0, 1]⟩ := by
  have pools := (@pool_guarantees_iff_size_fits roomyHeap 2 (by decide)
    (roomyHeap_serves 2)).mpr (by decide)
  obtain ⟨queue, made, guarantees⟩ := pools
  obtain ⟨_, madeHere, represented⟩ := @makeQueue_represents roomyHeap 2
    (by decide) (roomyHeap_serves 2) (by decide)
  obtain rfl := Option.some.inj (Option.some.inj (madeHere.symm.trans made))
  obtain ⟨one, first, oneHolds⟩ := represented.dequeue_eq
  obtain ⟨none, second, noneHolds⟩ := oneHolds.dequeue_eq
  obtain ⟨back, returned, backHolds⟩ := noneHolds.enqueue_append (by decide) 0
  obtain ⟨last, again, _⟩ := backHolds.dequeue_eq
  have zeroOut : PoolStep ⟨_, []⟩ [0] ⟨one, [0]⟩ :=
    .dequeued first (by decide)
  have oneOut : PoolStep ⟨one, [0]⟩ [1] ⟨none, [1, 0]⟩ :=
    .dequeued second (by decide)
  have isOut : (0 : Int) ∈ (⟨none, [1, 0]⟩ : Pool).handedOut := by simp
  have zeroBack : PoolStep ⟨none, [1, 0]⟩ [] ⟨back, [1]⟩ :=
    .returned isOut returned
  have zeroAgain : PoolStep ⟨back, [1]⟩ [0] ⟨last, [0, 1]⟩ :=
    .dequeued again (by decide)
  have ran : PoolRun ⟨_, []⟩ [0, 1, 0] ⟨last, [0, 1]⟩ :=
    (((PoolRun.refl.step zeroOut).step oneOut).step zeroBack).step zeroAgain
  exact ⟨_, last, made, ran, guarantees _ _ ran⟩

/-- From `2^30` ids on, the queue is written past its block before it is
returned. -/
theorem pool_overruns_wrapped_block :
    makeQueue roomyHeap 0x40000001 = none ∧
      ¬∀ (heap : Heap) (capacity : Nat), 1 ≤ capacity →
        capacity < 2147483648 → heap.Serves capacity →
        PoolsIds heap capacity := by
  have overruns : makeQueue roomyHeap ((0x40000001 : Nat) : Int) = none :=
    makeQueue_overruns (by decide) (roomyHeap_serves _) (by decide)
  refine ⟨overruns, ?_⟩
  intro everywhere
  exact not_poolsIds overruns
    (everywhere roomyHeap 0x40000001 (by decide) (by decide)
      (roomyHeap_serves _))

end CxRuntime
