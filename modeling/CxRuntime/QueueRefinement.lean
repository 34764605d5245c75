import CxRuntime.Lib.Transition
import CxRuntime.Queue

/-!
# The queue refines a bounded FIFO list

`Queue.At` places the fields of a queue: a segment of `size` words from `front`
in an array of `capacity` words, with `rear` one position before its end.  Every
operation keeps it in every wrap position, and reads the segment as a list.
-/

namespace CxRuntime

open BoundedFifo (Op Reply)

/-- The list a queue stands for. -/
def Queue.items (queue : Queue) : List Int :=
  RingBuffer.segment queue.arr queue.capacity.toNat queue.front.toNat
    queue.size.toNat

/-- The queue occupies `size` words from position `front`. -/
structure Queue.At (capacity front size : Nat) (queue : Queue) : Prop where
  capacity_eq : queue.capacity = capacity
  capacity_lt : capacity < 2147483648
  front_eq : queue.front = front
  front_lt : 0 < capacity → front < capacity
  size_eq : queue.size = size
  size_le : size ≤ capacity
  rear_eq : 0 < capacity →
    queue.rear = ((front + size + capacity - 1) % capacity : Nat)

/-- The bounds on the fields of a queue, in its own integers. -/
structure Queue.InBounds (capacity : Nat) (queue : Queue) : Prop where
  size_nonneg : 0 ≤ queue.size
  size_le : queue.size ≤ capacity
  front_nonneg : 1 ≤ capacity → 0 ≤ queue.front
  front_lt : 1 ≤ capacity → queue.front < capacity
  rear_nonneg : 1 ≤ capacity → 0 ≤ queue.rear
  rear_lt : 1 ≤ capacity → queue.rear < capacity
  rear_eq : 1 ≤ capacity →
    queue.rear = (queue.front + queue.size + capacity - 1) % capacity

namespace Queue.At

variable {capacity front size : Nat} {queue : Queue}

theorem items_eq (placed : queue.At capacity front size) :
    queue.items = RingBuffer.segment queue.arr capacity front size := by
  simp only [Queue.items, placed.capacity_eq, placed.front_eq, placed.size_eq,
    Int.toNat_natCast]

theorem length_items (placed : queue.At capacity front size) :
    queue.items.length = size := by
  rw [placed.items_eq, RingBuffer.length_segment]

theorem inBounds (placed : queue.At capacity front size) :
    queue.InBounds capacity := by
  have rearLt : 0 < capacity → (front + size + capacity - 1) % capacity < capacity :=
    fun positive => Nat.mod_lt _ positive
  constructor
  · rw [placed.size_eq]
    omega
  · rw [placed.size_eq]
    exact_mod_cast placed.size_le
  · intro _
    rw [placed.front_eq]
    omega
  · intro positive
    rw [placed.front_eq]
    exact_mod_cast placed.front_lt positive
  · intro positive
    rw [placed.rear_eq positive]
    omega
  · intro positive
    rw [placed.rear_eq positive]
    exact_mod_cast rearLt positive
  · intro positive
    rw [placed.rear_eq positive, placed.front_eq, placed.size_eq,
      Int.natCast_emod]
    congr 1
    omega

theorem isFull_iff (placed : queue.At capacity front size) :
    isFull queue = true ↔ size = capacity := by
  simp only [isFull, placed.size_eq, placed.capacity_eq, beq_iff_eq,
    Int.natCast_inj]

theorem isEmpty_iff (placed : queue.At capacity front size) :
    isEmpty queue = true ↔ size = 0 := by
  simp only [isEmpty, placed.size_eq, beq_iff_eq]
  omega

/-- The position behind the segment, computed from `rear` as the code does. -/
theorem next_rear (positive : 0 < capacity) (front size : Nat) :
    ((front + size + capacity - 1) % capacity + 1) % capacity =
      (front + size) % capacity := by
  rw [Nat.mod_add_mod]
  have shifted : front + size + capacity - 1 + 1 = front + size + capacity := by
    omega
  rw [shifted, Nat.add_mod_right]

/-- `enqueue` on a queue with room, up to the bounds check of its store. -/
theorem enqueue_eq (placed : queue.At capacity front size)
    (room : size < capacity) (item : Int) :
    enqueue queue item =
      (Cells.store queue.arrLength queue.arr
          (((front + size) % capacity : Nat) : Int) item).map fun arr =>
        { queue with
          rear := ((front + size) % capacity : Nat)
          arr := arr
          size := (size + 1 : Nat) } := by
  have positive : 0 < capacity := Nat.zero_lt_of_lt room
  have notFull : isFull queue = false := by
    rw [Bool.eq_false_iff, ne_eq, placed.isFull_iff]
    omega
  have rearLt := Nat.mod_lt (front + size + capacity - 1) positive
  have capacityLt := placed.capacity_lt
  have sizeStep : CInt.add (size : Int) 1 = some ((size + 1 : Nat) : Int) :=
    CInt.add_one (by omega)
  have rearStep :
      CInt.add (((front + size + capacity - 1) % capacity : Nat) : Int) 1 =
        some (((front + size + capacity - 1) % capacity + 1 : Nat) : Int) :=
    CInt.add_one (by omega)
  simp only [enqueue, notFull, placed.rear_eq positive, placed.size_eq,
    placed.capacity_eq, rearStep, sizeStep, CInt.mod_natCast positive,
    next_rear positive, Option.bind_eq_bind, Option.bind_some]
  cases Cells.store queue.arrLength queue.arr _ item <;> rfl

/-- The placement and the list after a store behind the segment. -/
theorem push (placed : queue.At capacity front size) (room : size < capacity)
    (item : Int) :
    let next : Queue :=
      { queue with
        rear := ((front + size) % capacity : Nat)
        arr := Function.update queue.arr ((front + size) % capacity) item
        size := (size + 1 : Nat) }
    next.At capacity front (size + 1) ∧ next.items = queue.items ++ [item] := by
  intro next
  have nextPlaced : next.At capacity front (size + 1) := by
    refine ⟨placed.capacity_eq, placed.capacity_lt, placed.front_eq,
      placed.front_lt, rfl, room, ?_⟩
    intro positive
    have shifted : front + (size + 1) + capacity - 1 = front + size + capacity := by
      omega
    rw [shifted, Nat.add_mod_right]
  refine ⟨nextPlaced, ?_⟩
  rw [nextPlaced.items_eq, placed.items_eq]
  exact RingBuffer.segment_push queue.arr room item

private theorem enqueue_full (placed : queue.At capacity front size)
    (full : size = capacity) (item : Int) : enqueue queue item = some queue := by
  rw [enqueue, if_pos (placed.isFull_iff.mpr full)]

theorem front_cell (placed : queue.At capacity front size)
    (fits : capacity ≤ queue.arrLength) (filled : 0 < size) :
    Cells.load queue.arrLength queue.arr (front : Int) =
      some (queue.arr front) := by
  have frontLt := placed.front_lt (Nat.lt_of_lt_of_le filled placed.size_le)
  exact Cells.load_natCast queue.arr (Nat.lt_of_lt_of_le frontLt fits)

/-- The list of a non-empty queue, split at its front word. -/
theorem items_eq_cons (placed : queue.At capacity front size)
    (filled : 0 < size) :
    queue.items = queue.arr front ::
      RingBuffer.segment queue.arr capacity ((front + 1) % capacity)
        (size - 1) := by
  have frontLt := placed.front_lt (Nat.lt_of_lt_of_le filled placed.size_le)
  obtain ⟨rest, rfl⟩ := Nat.exists_eq_succ_of_ne_zero filled.ne'
  rw [placed.items_eq, RingBuffer.segment_pop, Nat.mod_eq_of_lt frontLt]
  rfl

private theorem dequeue_filled (placed : queue.At capacity front size)
    (fits : capacity ≤ queue.arrLength) (filled : 0 < size) :
    dequeue queue =
      some ({ queue with
        front := ((front + 1) % capacity : Nat)
        size := (size - 1 : Nat) }, queue.arr front) := by
  have positive : 0 < capacity := Nat.lt_of_lt_of_le filled placed.size_le
  have notEmpty : isEmpty queue = false := by
    rw [Bool.eq_false_iff, ne_eq, placed.isEmpty_iff]
    omega
  have frontLt := placed.front_lt positive
  have sizeLe := placed.size_le
  have capacityLt := placed.capacity_lt
  have frontStep : CInt.add (front : Int) 1 = some ((front + 1 : Nat) : Int) :=
    CInt.add_one (by omega)
  have sizePred : ((size - 1 : Nat) : Int) = (size : Int) - 1 := by omega
  have sizeStep : CInt.sub (size : Int) 1 = some ((size - 1 : Nat) : Int) := by
    rw [sizePred]
    exact CInt.sub_one (by omega)
  simp only [dequeue, notEmpty, placed.front_cell fits filled, placed.front_eq,
    placed.size_eq, placed.capacity_eq, frontStep, sizeStep,
    CInt.mod_natCast positive, Option.bind_eq_bind, Option.bind_some,
    Bool.false_eq_true, if_false]

private theorem pop (placed : queue.At capacity front size)
    (filled : 0 < size) :
    let next : Queue :=
      { queue with
        front := ((front + 1) % capacity : Nat)
        size := (size - 1 : Nat) }
    next.At capacity ((front + 1) % capacity) (size - 1) ∧
      next.items = queue.items.tail := by
  intro next
  have positive : 0 < capacity := Nat.lt_of_lt_of_le filled placed.size_le
  have nextPlaced : next.At capacity ((front + 1) % capacity) (size - 1) := by
    refine ⟨placed.capacity_eq, placed.capacity_lt, rfl,
      fun _ => Nat.mod_lt _ positive, rfl,
      (Nat.sub_le size 1).trans placed.size_le, ?_⟩
    intro _
    have regroup : (front + 1) % capacity + (size - 1) + capacity - 1 =
        (front + 1) % capacity + (size - 1 + (capacity - 1)) := by
      omega
    have total : front + 1 + (size - 1 + (capacity - 1)) =
        front + size + capacity - 1 := by
      omega
    rw [regroup, Nat.mod_add_mod, total]
    exact placed.rear_eq positive
  refine ⟨nextPlaced, ?_⟩
  rw [nextPlaced.items_eq, placed.items_eq_cons filled]
  rfl

private theorem dequeue_empty (placed : queue.At capacity front size)
    (empty : size = 0) : dequeue queue = some (queue, -1) := by
  rw [dequeue, if_pos (placed.isEmpty_iff.mpr empty)]

theorem frontItem_eq (placed : queue.At capacity front size)
    (fits : capacity ≤ queue.arrLength) :
    frontItem queue = some (queue.items.head?.getD (-1)) := by
  rcases Nat.eq_zero_or_pos size with empty | filled
  · have noItems : queue.items = [] := by
      rw [placed.items_eq, empty, RingBuffer.segment_zero]
    rw [frontItem, if_pos (placed.isEmpty_iff.mpr empty), noItems]
    rfl
  · have notEmpty : ¬isEmpty queue = true := by
      rw [placed.isEmpty_iff]
      omega
    rw [frontItem, if_neg notEmpty, placed.front_eq,
      placed.front_cell fits filled, placed.items_eq_cons filled]
    rfl

end Queue.At

/-! ## One operation -/

/-- A queue in a block that holds its whole capacity, standing for `items`. -/
def Represents (capacity : Nat) (queue : Queue) (items : List Int) : Prop :=
  (∃ front size, queue.At capacity front size) ∧
    capacity ≤ queue.arrLength ∧ queue.items = items

namespace Represents

variable {capacity : Nat} {queue : Queue} {items : List Int}

theorem inBounds (represents : Represents capacity queue items) :
    queue.InBounds capacity := by
  obtain ⟨⟨front, size, placed⟩, _, _⟩ := represents
  exact placed.inBounds

theorem enqueue_append (represents : Represents capacity queue items)
    (room : items.length < capacity) (item : Int) :
    ∃ next, enqueue queue item = some next ∧
      Represents capacity next (items ++ [item]) := by
  obtain ⟨⟨front, size, placed⟩, fits, rfl⟩ := represents
  rw [placed.length_items] at room
  have below : (front + size) % capacity < queue.arrLength :=
    Nat.lt_of_lt_of_le (Nat.mod_lt _ (Nat.zero_lt_of_lt room)) fits
  obtain ⟨nextPlaced, nextItems⟩ := placed.push room item
  refine ⟨_, ?_, ⟨front, size + 1, nextPlaced⟩, fits, nextItems⟩
  rw [placed.enqueue_eq room, Cells.store_natCast queue.arr below]
  rfl

private theorem enqueue_drop (represents : Represents capacity queue items)
    (full : ¬items.length < capacity) (item : Int) :
    enqueue queue item = some queue := by
  obtain ⟨⟨front, size, placed⟩, fits, rfl⟩ := represents
  rw [placed.length_items] at full
  have sizeLe := placed.size_le
  exact placed.enqueue_full (by omega) item

theorem dequeue_eq (represents : Represents capacity queue items) :
    ∃ next, dequeue queue = some (next, items.head?.getD (-1)) ∧
      Represents capacity next items.tail := by
  obtain ⟨⟨front, size, placed⟩, fits, rfl⟩ := represents
  rcases Nat.eq_zero_or_pos size with empty | filled
  · have noItems : queue.items = [] := by
      rw [placed.items_eq, empty, RingBuffer.segment_zero]
    rw [noItems]
    exact ⟨queue, placed.dequeue_empty empty, ⟨front, size, placed⟩, fits,
      noItems⟩
  · obtain ⟨nextPlaced, nextItems⟩ := placed.pop filled
    refine ⟨_, ?_, ⟨_, _, nextPlaced⟩, fits, nextItems⟩
    rw [placed.dequeue_filled fits filled, placed.items_eq_cons filled]
    rfl

theorem frontItem_eq (represents : Represents capacity queue items) :
    frontItem queue = some (items.head?.getD (-1)) := by
  obtain ⟨⟨front, size, placed⟩, fits, rfl⟩ := represents
  exact placed.frontItem_eq fits

end Represents

/-- One call on a queue, with the value it returns if it returns one. -/
def queueStep (queue : Queue) : Op Int → Option (Queue × Option Int)
  | .enqueue item => (enqueue queue item).map fun next => (next, none)
  | .dequeue => (dequeue queue).map fun next => (next.1, some next.2)
  | .front => (frontItem queue).map fun item => (queue, some item)

/-- How a reply of the list appears to the caller: `-1` for an empty list. -/
def returned : Reply Int → Option Int
  | .done => none
  | .head item => some (item.getD (-1))

private theorem queueStep_refines {capacity : Nat} {queue : Queue}
    {items : List Int}
    (op : Op Int) (represents : Represents capacity queue items) :
    ∃ next, queueStep queue op =
        some (next, returned (BoundedFifo.step capacity items op).2) ∧
      Represents capacity next (BoundedFifo.step capacity items op).1 := by
  cases op with
  | enqueue item =>
      by_cases room : items.length < capacity
      · obtain ⟨next, enqueued, nextRepresents⟩ :=
          represents.enqueue_append room item
        refine ⟨next, by simp only [queueStep, enqueued]; rfl, ?_⟩
        simpa only [BoundedFifo.step, if_pos room] using nextRepresents
      · refine ⟨queue, ?_, ?_⟩
        · simp only [queueStep, represents.enqueue_drop room]
          rfl
        · simpa only [BoundedFifo.step, if_neg room] using represents
  | dequeue =>
      obtain ⟨next, dequeued, nextRepresents⟩ := represents.dequeue_eq
      exact ⟨next, by simp only [queueStep, dequeued]; rfl, nextRepresents⟩
  | front =>
      exact ⟨queue, by simp only [queueStep, represents.frontItem_eq]; rfl,
        represents⟩

/-! ## Construction and whole runs -/

/-- The list `[0, 1, ..., capacity - 1]`. -/
def ids (capacity : Nat) : List Int :=
  List.map (fun index : Nat => (index : Int)) (List.range capacity)

private theorem ids_succ (capacity : Nat) :
    ids (capacity + 1) = ids capacity ++ [(capacity : Int)] := by
  simp [ids, List.range_succ]

/-- What holds after `filled` iterations of the loop of `make_queue` on a block of
`length` words. -/
structure Filling (capacity length filled : Nat) (queue : Queue) : Prop where
  placed : queue.At capacity 0 filled
  block : queue.arrLength = length
  items : queue.items = ids filled

namespace Filling

variable {capacity length filled : Nat} {queue : Queue}

/-- The queue that enters the loop of `make_queue`. -/
theorem start (int32 : capacity < 2147483648) (words : Nat → Int) :
    Filling capacity length 0
      { arrLength := length
        arr := words
        front := 0
        rear := (capacity : Int) - 1
        size := 0
        capacity := capacity } := by
  refine ⟨⟨rfl, int32, rfl, id, rfl, Nat.zero_le _, ?_⟩, rfl, rfl⟩
  intro positive
  have rearEq : (0 + 0 + capacity - 1) % capacity = capacity - 1 := by
    rw [Nat.zero_add]
    exact Nat.mod_eq_of_lt (by omega)
  rw [rearEq]
  change (capacity : Int) - 1 = _
  omega

/-- The iteration stores its index at the position of the same number. -/
theorem enqueue_eq (filling : Filling capacity length filled queue)
    (below : filled < capacity) :
    enqueue queue (filled : Int) =
      (Cells.store length queue.arr (filled : Int) filled).map fun arr =>
        { queue with rear := filled, arr := arr, size := (filled + 1 : Nat) } := by
  rw [filling.placed.enqueue_eq below, filling.block, Nat.zero_add,
    Nat.mod_eq_of_lt below]

theorem step (filling : Filling capacity length filled queue)
    (below : filled < capacity) (inside : filled < length) :
    ∃ next, enqueue queue (filled : Int) = some next ∧
      Filling capacity length (filled + 1) next := by
  obtain ⟨nextPlaced, nextItems⟩ := filling.placed.push below (filled : Int)
  rw [Nat.zero_add, Nat.mod_eq_of_lt below] at nextPlaced nextItems
  rw [filling.items, ← ids_succ] at nextItems
  refine ⟨_, ?_, nextPlaced, filling.block, nextItems⟩
  rw [filling.enqueue_eq below, Cells.store_natCast queue.arr inside]
  rfl

private theorem overrun (filling : Filling capacity length filled queue)
    (below : filled < capacity) (outside : length ≤ filled) :
    enqueue queue (filled : Int) = none := by
  have past : (length : Int) ≤ filled := Int.ofNat_le.mpr outside
  rw [filling.enqueue_eq below,
    Cells.store_outside queue.arr (Or.inr past), Option.map_none]

/-- Iterations inside the block all succeed. -/
theorem fill (filling : Filling capacity length 0 queue) {count : Nat}
    (within : count ≤ capacity) (fits : count ≤ length) :
    ∃ final, Loop.forUpTo count (fun i queue => enqueue queue (i : Int)) queue =
        some final ∧
      Filling capacity length count final :=
  Loop.forUpTo_total _ queue (Filling capacity length) filling count
    fun _ _ below held =>
      held.step (Nat.lt_of_lt_of_le below within)
        (Nat.lt_of_lt_of_le below fits)

/-- A block that is too short faults at its end. -/
theorem fill_short (filling : Filling capacity length 0 queue)
    (short : length < capacity) :
    Loop.forUpTo capacity (fun i queue => enqueue queue (i : Int)) queue =
      none := by
  obtain ⟨full, filled, held⟩ := filling.fill (Nat.le_of_lt short) (Nat.le_refl _)
  apply Loop.forUpTo_none_of_prefix (Nat.succ_le_of_lt short)
  rw [Loop.forUpTo_succ, filled, Option.bind_some]
  exact held.overrun short (Nat.le_refl _)

end Filling

/-- Neither `malloc` call of `make_queue` returns `NULL`. -/
structure Heap.Serves (heap : Heap) (capacity : Int) : Prop where
  node : heap.nodeIsNull = false
  words : ∃ words, heap.mallocWords (arrBytes capacity) = some words

/-- The product `sizeof(int32_t) * capacity` wraps from `2^30` on, and leaves a
block that is too short. -/
theorem block_fits_iff {capacity : Nat} (int32 : capacity < 2147483648) :
    capacity ≤ arrBytes capacity / 4 ↔ 4 * capacity < 4294967296 := by
  unfold arrBytes
  omega

theorem makeQueue_represents {heap : Heap} {capacity : Nat}
    (int32 : capacity < 2147483648) (serves : heap.Serves capacity)
    (fits : 4 * capacity < 4294967296) :
    ∃ queue, makeQueue heap (capacity : Int) = some (some queue) ∧
      Represents capacity queue (ids capacity) := by
  obtain ⟨words, allocated⟩ := serves.words
  have block := (block_fits_iff int32).mpr fits
  obtain ⟨final, filled, held⟩ :=
    (Filling.start int32 words).fill (Nat.le_refl capacity) block
  refine ⟨final, ?_, ⟨0, capacity, held.placed⟩, ?_, held.items⟩
  · simp only [makeQueue, serves.node, allocated, CInt.sub_one int32,
      Option.bind_eq_bind, Option.bind_some, Int.toNat_natCast, filled]
    rfl
  · rw [held.block]
    exact block

theorem makeQueue_overruns {heap : Heap} {capacity : Nat}
    (int32 : capacity < 2147483648) (serves : heap.Serves capacity)
    (wraps : ¬4 * capacity < 4294967296) :
    makeQueue heap (capacity : Int) = none := by
  obtain ⟨words, allocated⟩ := serves.words
  have short : arrBytes capacity / 4 < capacity :=
    Nat.not_le.mp fun block => wraps ((block_fits_iff int32).mp block)
  simp only [makeQueue, serves.node, allocated, CInt.sub_one int32,
    Option.bind_eq_bind, Option.bind_some, Int.toNat_natCast,
    (Filling.start int32 words).fill_short short]
  rfl

/-- `make_queue` returns a queue, and every run of it is a run of the bounded
list that starts as `[0, ..., capacity - 1]`: no call faults, and the bounds on
the fields hold after it. -/
def RunsAsFifo (heap : Heap) (capacity : Nat) : Prop :=
  ∃ queue, makeQueue heap (capacity : Int) = some (some queue) ∧
    ∀ ops : List (Op Int), ∃ final,
      Transition.run queueStep queue ops =
        some (final,
          (BoundedFifo.run capacity (ids capacity) ops).2.map returned) ∧
      final.items = (BoundedFifo.run capacity (ids capacity) ops).1 ∧
      final.InBounds capacity

private theorem not_runsAsFifo {heap : Heap} {capacity : Nat}
    (faults : makeQueue heap (capacity : Int) = none) :
    ¬RunsAsFifo heap capacity := by
  rintro ⟨queue, made, _⟩
  rw [faults] at made
  cases made

/-- Of a heap that serves both allocations, `make_queue` makes a bounded FIFO
queue exactly if the size of the block does not wrap. -/
theorem queue_refines_fifo_iff_size_fits {heap : Heap} {capacity : Nat}
    (int32 : capacity < 2147483648) (serves : heap.Serves capacity) :
    RunsAsFifo heap capacity ↔ 4 * capacity < 4294967296 := by
  constructor
  · intro runs
    by_contra wraps
    exact not_runsAsFifo (makeQueue_overruns int32 serves wraps) runs
  · intro fits
    obtain ⟨queue, made, represented⟩ := makeQueue_represents int32 serves fits
    refine ⟨queue, made, ?_⟩
    intro ops
    obtain ⟨final, ran, represents⟩ :=
      Transition.run_refines (Represents capacity) returned
        (fun _ _ op represents => queueStep_refines op represents) ops
        represented
    exact ⟨final, ran, represents.2.2, represents.inBounds⟩

/-- A heap on which both allocations of `make_queue` succeed. -/
def roomyHeap : Heap :=
  { nodeIsNull := false
    mallocWords := fun _ => some fun _ => 7 }

theorem roomyHeap_serves (capacity : Int) : roomyHeap.Serves capacity :=
  ⟨rfl, _, rfl⟩

theorem queue_refines_fifo_two :
    ∃ queue final, makeQueue roomyHeap 2 = some (some queue) ∧
      Transition.run queueStep queue [.dequeue, .enqueue 9, .enqueue 5, .front] =
        some (final, [some 0, none, none, some 1]) ∧
      final.items = [1, 9] ∧ final.InBounds 2 := by
  have runs := (@queue_refines_fifo_iff_size_fits roomyHeap 2 (by decide)
    (roomyHeap_serves 2)).mpr (by decide)
  obtain ⟨queue, made, runs⟩ := runs
  obtain ⟨final, ran, itemsEq, bounds⟩ :=
    runs [.dequeue, .enqueue 9, .enqueue 5, .front]
  exact ⟨queue, final, made, ran, itemsEq, bounds⟩

/-- `make_queue(0x40000001)` asks for a block of one word and writes the second. -/
theorem queue_overruns_wrapped_block :
    arrBytes 0x40000001 = 4 ∧ makeQueue roomyHeap 0x40000001 = none ∧
      ¬∀ (heap : Heap) (capacity : Nat), capacity < 2147483648 →
        heap.Serves capacity → RunsAsFifo heap capacity := by
  have overruns : makeQueue roomyHeap ((0x40000001 : Nat) : Int) = none :=
    makeQueue_overruns (by decide) (roomyHeap_serves _) (by decide)
  refine ⟨by decide, overruns, ?_⟩
  intro everywhere
  exact not_runsAsFifo overruns
    (everywhere roomyHeap 0x40000001 (by decide) (roomyHeap_serves _))

end CxRuntime
