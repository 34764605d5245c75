import CxRuntime.Lib.CInt
import CxRuntime.Lib.Cells
import CxRuntime.Lib.RingBuffer

/-!
# The queue of `queue.c`

`queue_t` with its heap array, and the operations of `queue.c`.  `none` stands
for undefined behaviour: an access outside the array, a signed overflow or a
modulo by zero.
-/

namespace CxRuntime

/-- `queue_t`.  `arr` points to a heap block of `arrLength` words. -/
structure Queue where
  arrLength : Nat
  arr : Nat → Int
  front : Int
  rear : Int
  size : Int
  capacity : Int

def isFull (queue : Queue) : Bool := queue.size == queue.capacity

def isEmpty (queue : Queue) : Bool := queue.size == 0

def enqueue (queue : Queue) (item : Int) : Option Queue :=
  if isFull queue then some queue
  else do
    let rear ← CInt.mod (← CInt.add queue.rear 1) queue.capacity
    let arr ← Cells.store queue.arrLength queue.arr rear item
    let size ← CInt.add queue.size 1
    some { queue with rear := rear, arr := arr, size := size }

def dequeue (queue : Queue) : Option (Queue × Int) :=
  if isEmpty queue then some (queue, -1)
  else do
    let item ← Cells.load queue.arrLength queue.arr queue.front
    let front ← CInt.mod (← CInt.add queue.front 1) queue.capacity
    let size ← CInt.sub queue.size 1
    some ({ queue with front := front, size := size }, item)

/-- The function `front` of `queue.c`. -/
def frontItem (queue : Queue) : Option Int :=
  if isEmpty queue then some (-1)
  else Cells.load queue.arrLength queue.arr queue.front

/-- What the two `malloc` calls of `make_queue` return: whether the first is
`NULL`, and for a number of bytes the uninitialised words of the second. -/
structure Heap where
  nodeIsNull : Bool
  mallocWords : Nat → Option (Nat → Int)

/-- `sizeof(int32_t) * capacity`, computed in the 32-bit `size_t` of the target. -/
def arrBytes (capacity : Int) : Nat := (4 * capacity % 4294967296).toNat

/-- The inner `none` is the returned `NULL`. -/
def makeQueue (heap : Heap) (capacity : Int) : Option (Option Queue) :=
  if heap.nodeIsNull then some none
  else
    match heap.mallocWords (arrBytes capacity) with
    | none => some none
    | some words => do
        let rear ← CInt.sub capacity 1
        let queue : Queue :=
          { arrLength := arrBytes capacity / 4
            arr := words
            front := 0
            rear := rear
            size := 0
            capacity := capacity }
        let filled ← Loop.forUpTo capacity.toNat
          (fun i queue => enqueue queue i) queue
        some (some filled)

end CxRuntime
